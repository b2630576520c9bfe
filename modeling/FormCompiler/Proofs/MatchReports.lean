import FormCompiler.Coverage
import FormCompiler.Proofs.SourceSpans

/-!
# Reports of matches

The check for exhaustive matches is told apart from its traversal.  The first
part says in terms of forms what a match over a declared sum is and which
variants it misses; the functions of the check find just that.  The second
part is about the traversal: it looks at every node once, in the order of the
text, and each node is looked at by itself.

So there is one report for each match that misses variants, in the order of
the matches, and only matches over declared sums have metadata added.
-/

namespace FormCompiler

/-! ## Notes and nodes -/

namespace Tree

variable {Note : Type}

mutual

/-- The same tree, with the note of each node given by the node. -/
def renoted (change : Tree Note → Note) : Tree Note → Tree Note
  | .atom note value => .atom (change (.atom note value)) value
  | .group note bracket items =>
      .group (change (.group note bracket items)) bracket
        (renotedList change items)
  | .tagged note tag value =>
      .tagged (change (.tagged note tag value)) tag (renoted change value)

def renotedList (change : Tree Note → Note) :
    List (Tree Note) → List (Tree Note)
  | [] => []
  | tree :: trees => renoted change tree :: renotedList change trees

end

mutual

/-- New notes leave the shape of a tree alone. -/
theorem datum_renoted (change : Tree Note → Note) :
    ∀ tree : Tree Note, (tree.renoted change).datum = tree.datum
  | .atom .. => rfl
  | .group _ bracket items =>
      congrArg (Tree.group () bracket) (datumList_renoted change items)
  | .tagged _ tag value =>
      congrArg (Tree.tagged () tag) (datum_renoted change value)

theorem datumList_renoted (change : Tree Note → Note) :
    ∀ trees : List (Tree Note),
      mapNotesList (fun _ => ()) (renotedList change trees) =
        mapNotesList (fun _ => ()) trees
  | [] => rfl
  | tree :: trees => by
      have first := datum_renoted change tree
      unfold datum at first
      rw [renotedList, mapNotesList, mapNotesList, first,
        datumList_renoted change trees]

end

end Tree

/-- A list with a symbol at its head, and the items behind it. -/
def Form.IsCall (form : Form) (head : String) (items : List Form) : Prop :=
  ∃ symbol : Form,
    form.list? = some (symbol :: items) ∧ symbol.symbol? = some head

theorem Form.IsCall.head? {form : Form} {head : String} {items : List Form}
    (call : form.IsCall head items) : form.head? = some head := by
  obtain ⟨symbol, listed, named⟩ := call
  simp [Tree.head?, listed, named]

theorem Form.isCall_of_head? {form : Form} {head : String}
    (headed : form.head? = some head) :
    ∃ items, form.IsCall head items := by
  obtain ⟨items, listed, headed⟩ := Option.bind_eq_some_iff.mp headed
  obtain ⟨symbol, first, named⟩ := Option.bind_eq_some_iff.mp headed
  obtain ⟨rest, rfl⟩ := List.head?_eq_some_iff.mp first
  exact ⟨rest, symbol, listed, named⟩

namespace Coverage

/-! ## What is checked -/

/-- The value of a keyword, where keywords and values alternate: it stands
behind the first occurrence in the place of a keyword. -/
inductive Keyed (key : String) : List Form → Form → Prop where
  | here {keyword value : Form} {rest : List Form}
      (named : keyword.keyword? = some key) :
      Keyed key (keyword :: value :: rest) value
  | there {keyword value found : Form} {rest : List Form}
      (other : keyword.keyword? ≠ some key) (later : Keyed key rest found) :
      Keyed key (keyword :: value :: rest) found

/-- A `variant` form names a variant. -/
def NamesVariant (form : Form) (variant : String) : Prop :=
  ∃ items name, form.IsCall "variant" items ∧ Keyed "name" items name ∧
    name.name? = some variant

/-- The variants that forms name, in order.  Forms that name none are passed
over. -/
inductive NameVariants : List Form → List String → Prop where
  | nil : NameVariants [] []
  | named {form : Form} {forms : List Form} {variant : String}
      {variants : List String} (names : NamesVariant form variant)
      (others : NameVariants forms variants) :
      NameVariants (form :: forms) (variant :: variants)
  | skipped {form : Form} {forms : List Form} {variants : List String}
      (nameless : ∀ variant, ¬NamesVariant form variant)
      (others : NameVariants forms variants) :
      NameVariants (form :: forms) variants

/-- The items of the vector under a keyword; there are none where there is no
vector. -/
inductive VectorUnder (key : String) (arguments : List Form) :
    List Form → Prop where
  | vector {value : Form} {items : List Form}
      (keyed : Keyed key arguments value)
      (isVector : value.vector? = some items) :
      VectorUnder key arguments items
  | missing (none : ∀ value items, Keyed key arguments value →
      value.vector? ≠ some items) : VectorUnder key arguments []

/-- `(sum :name sum :variants [(variant :name v ..)..])` -/
def DeclaresSum (form : Form) (sum : String) (variants : List String) :
    Prop :=
  ∃ arguments name forms, form.IsCall "sum" arguments ∧
    Keyed "name" arguments name ∧ name.name? = some sum ∧
    VectorUnder "variants" arguments forms ∧ NameVariants forms variants

/-- The last declaration of a sum lists these variants. -/
def DeclaredWith (forms : List Form) (sum : String)
    (variants : List String) : Prop :=
  ∃ before declaration after, forms = before ++ declaration :: after ∧
    DeclaresSum declaration sum variants ∧
    ∀ later ∈ after, ∀ others, ¬DeclaresSum later sum others

/-- `%name`, with a name that is not empty. -/
def IsResult (form : Form) : Prop :=
  ∃ first rest, form.symbol?.map String.toList = some ('%' :: first :: rest)

/-- The items of a match behind its head name a sum, and end in keyword
arguments: `S value ..` or `%result type S value ..` -/
inductive MatchItems : List Form → (sum : String) →
    (arguments : List Form) → Prop where
  | statement {sumForm : Form} {rest : List Form} {sum : String}
      (noResult : ¬IsResult sumForm) (named : sumForm.name? = some sum) :
      MatchItems (sumForm :: rest) sum rest.tail
  | result {result type sumForm : Form} {rest : List Form} {sum : String}
      (isResult : IsResult result) (named : sumForm.name? = some sum) :
      MatchItems (result :: type :: sumForm :: rest) sum rest.tail

/-- A case of a match names a variant. -/
def HasCase (arguments : List Form) (variant : String) : Prop :=
  ∃ forms, VectorUnder "cases" arguments forms ∧
    ∃ form ∈ forms, ∃ name rest, form.IsCall "case" (name :: rest) ∧
      name.name? = some variant

/-- What a match misses of some variants: nothing if it has a default, else
the variants without a case. -/
inductive Misses (variants : List String) (arguments : List Form) :
    List String → Prop where
  | default {value : Form} (keyed : Keyed "default" arguments value) :
      Misses variants arguments []
  | cases {uncovered : String → Bool}
      (noDefault : ∀ value, ¬Keyed "default" arguments value)
      (spec : ∀ variant, uncovered variant = true ↔
        ¬HasCase arguments variant) :
      Misses variants arguments (variants.filter uncovered)

/-- A match over a sum that is declared among some forms, and the variants
that it misses. -/
def IsMatchMissing (declarations : List Form) (form : Form) (sum : String)
    (missing : List String) : Prop :=
  ∃ items arguments variants, form.IsCall "match" items ∧
    MatchItems items sum arguments ∧
    DeclaredWith declarations sum variants ∧ Misses variants arguments missing

/-! ## What the check finds -/

theorem keywordValue?_eq_some_iff {key : String} {items : List Form}
    {value : Form} :
    keywordValue? key items = some value ↔ Keyed key items value := by
  fun_induction keywordValue? key items with
  | case1 keyword first rest named =>
      constructor
      · rintro ⟨⟩
        exact .here named
      · intro keyed
        cases keyed with
        | here => rfl
        | there other => exact absurd named other
  | case2 keyword first rest other ih =>
      rw [ih]
      constructor
      · exact .there other
      · intro keyed
        cases keyed with
        | here named => exact absurd named other
        | there _ later => exact later
  | case3 items short =>
      constructor
      · exact nofun
      · intro keyed
        cases keyed with
        | here => exact absurd rfl (short _ _ _)
        | there => exact absurd rfl (short _ _ _)

theorem keywordValue?_eq_none_iff {key : String} {items : List Form} :
    keywordValue? key items = none ↔ ∀ value, ¬Keyed key items value := by
  simp only [← keywordValue?_eq_some_iff]
  exact Option.eq_none_iff_forall_ne_some

theorem vectorUnder_iff {key : String} {arguments items : List Form} :
    VectorUnder key arguments items ↔
      ((keywordValue? key arguments).bind Tree.vector?).getD [] = items := by
  constructor
  · intro under
    cases under with
    | vector keyed isVector =>
        rw [keywordValue?_eq_some_iff.mpr keyed, Option.bind_some, isVector,
          Option.getD_some]
    | missing none =>
        have nothing : (keywordValue? key arguments).bind Tree.vector? =
            Option.none := by
          rw [Option.bind_eq_none_iff]
          intro value found
          rw [Option.eq_none_iff_forall_ne_some]
          exact fun items =>
            none value items (keywordValue?_eq_some_iff.mp found)
        rw [nothing, Option.getD_none]
  · rintro rfl
    cases found : (keywordValue? key arguments).bind Tree.vector? with
    | some items =>
        obtain ⟨value, keyed, isVector⟩ := Option.bind_eq_some_iff.mp found
        exact .vector (keywordValue?_eq_some_iff.mp keyed) isVector
    | none =>
        refine .missing fun value items keyed isVector => ?_
        rw [keywordValue?_eq_some_iff.mpr keyed, Option.bind_some] at found
        exact absurd (found.symm.trans isVector) nofun

/-- The variant that a form of a declaration names. -/
def namedVariant? (form : Form) : Option String :=
  if form.head? = some "variant" then
    form.list?.bind fun items =>
      (keywordValue? "name" items.tail).bind Tree.name?
  else none

theorem namedVariant?_eq_some_iff {form : Form} {variant : String} :
    namedVariant? form = some variant ↔ NamesVariant form variant := by
  unfold namedVariant? NamesVariant
  constructor
  · intro found
    split at found
    · next headed =>
        obtain ⟨items, call⟩ := Form.isCall_of_head? headed
        obtain ⟨symbol, listed, -⟩ := id call
        rw [listed, Option.bind_some, List.tail_cons] at found
        obtain ⟨name, keyed, named⟩ := Option.bind_eq_some_iff.mp found
        exact ⟨items, name, call, keywordValue?_eq_some_iff.mp keyed, named⟩
    · cases found
  · rintro ⟨items, name, call, keyed, named⟩
    rw [if_pos call.head?]
    obtain ⟨symbol, listed, -⟩ := call
    rw [listed, Option.bind_some, List.tail_cons,
      keywordValue?_eq_some_iff.mpr keyed, Option.bind_some, named]

theorem nameVariants_iff {forms : List Form} {variants : List String} :
    NameVariants forms variants ↔
      forms.filterMap namedVariant? = variants := by
  induction forms generalizing variants with
  | nil =>
      constructor
      · rintro ⟨⟩
        rfl
      · rintro rfl
        exact .nil
  | cons form forms ih =>
      rw [List.filterMap_cons]
      cases found : namedVariant? form with
      | none =>
          have nameless : ∀ variant, ¬NamesVariant form variant := by
            simp only [← namedVariant?_eq_some_iff, found]
            exact fun _ => nofun
          dsimp only
          constructor
          · intro names
            cases names with
            | named names => exact absurd names (nameless _)
            | skipped _ others => exact ih.mp others
          · exact fun same => .skipped nameless (ih.mpr same)
      | some variant =>
          have names := namedVariant?_eq_some_iff.mp found
          dsimp only
          constructor
          · intro others
            cases others with
            | named other others =>
                rw [← namedVariant?_eq_some_iff, found] at other
                cases other
                rw [ih.mp others]
            | skipped nameless => exact absurd names (nameless _)
          · rintro rfl
            exact .named names (ih.mpr rfl)

theorem declaredSum?_eq_some_iff {form : Form} {sum : String}
    {variants : List String} :
    declaredSum? form = some (sum, variants) ↔
      DeclaresSum form sum variants := by
  unfold declaredSum? DeclaresSum
  constructor
  · intro found
    split at found
    · next headed =>
        obtain ⟨items, call⟩ := Form.isCall_of_head? headed
        obtain ⟨symbol, listed, -⟩ := id call
        rw [listed, Option.bind_some, List.tail_cons] at found
        obtain ⟨name, nameFound, same⟩ := Option.map_eq_some_iff.mp found
        cases same
        obtain ⟨nameForm, keyed, named⟩ :=
          Option.bind_eq_some_iff.mp nameFound
        exact ⟨items, nameForm, _, call, keywordValue?_eq_some_iff.mp keyed,
          named, vectorUnder_iff.mpr rfl, nameVariants_iff.mpr rfl⟩
    · cases found
  · rintro ⟨items, nameForm, forms, call, keyed, named, under, names⟩
    rw [if_pos call.head?]
    obtain ⟨symbol, listed, -⟩ := call
    rw [listed, Option.bind_some, List.tail_cons,
      keywordValue?_eq_some_iff.mpr keyed, Option.bind_some, named,
      Option.map_some, ← nameVariants_iff.mp names,
      ← vectorUnder_iff.mp under]
    rfl

theorem lookup_declared_eq_none_iff {forms : List Form} {sum : String} :
    (forms.filterMap declaredSum?).reverse.lookup sum = none ↔
      ∀ form ∈ forms, ∀ variants,
        declaredSum? form ≠ some (sum, variants) := by
  rw [List.lookup_eq_none_iff]
  constructor
  · intro apart form member variants found
    have listed := List.mem_filterMap.mpr ⟨form, member, found⟩
    simpa using apart _ (List.mem_reverse.mpr listed)
  · rintro apart ⟨name, variants⟩ listed
    obtain ⟨form, member, found⟩ :=
      List.mem_filterMap.mp (List.mem_reverse.mp listed)
    rw [bne_iff_ne]
    rintro rfl
    exact apart form member variants found

/-- The latest declaration of a sum is the one that is found. -/
theorem variants?_eq_some_iff {forms : List Form} {sum : String}
    {variants : List String} :
    (SumVariants.collect forms).variants? sum = some variants ↔
      DeclaredWith forms sum variants := by
  unfold SumVariants.variants? SumVariants.collect DeclaredWith
  simp only [← declaredSum?_eq_some_iff]
  induction forms with
  | nil => simp
  | cons form forms ih =>
      have latest : ((form :: forms).filterMap declaredSum?).reverse =
          (forms.filterMap declaredSum?).reverse ++
            (declaredSum? form).toList := by
        rw [List.filterMap_cons]
        cases declaredSum? form <;> simp
      rw [latest, List.lookup_append, Option.or_eq_some_iff, ih]
      constructor
      · rintro (⟨before, declaration, after, rfl, found, last⟩ |
          ⟨nothing, here⟩)
        · exact ⟨form :: before, declaration, after, rfl, found, last⟩
        · refine ⟨[], form, forms, rfl, ?_,
            lookup_declared_eq_none_iff.mp nothing⟩
          cases found : declaredSum? form with
          | none => simp [found] at here
          | some declared =>
              rw [found, Option.toList_some, List.lookup_cons] at here
              split at here
              · next same =>
                  cases here
                  rw [beq_iff_eq.mp same]
              · cases here
      · rintro ⟨before, declaration, after, split, found, last⟩
        cases before with
        | nil =>
            cases split
            refine .inr ⟨lookup_declared_eq_none_iff.mpr last, ?_⟩
            rw [found, Option.toList_some, List.lookup_cons_self]
        | cons first before =>
            cases split
            exact .inl ⟨before, declaration, after, rfl, found, last⟩

/-- The name of a sum with the keyword arguments behind the value of type
sum. -/
def sumParts? (items : List Form) : Option (String × List Form) :=
  items.head?.bind fun sum =>
    sum.name?.map fun name => (name, items.tail.tail)

theorem matchParts?_of_isResult {form symbol result type : Form}
    {rest : List Form}
    (listed : form.list? = some (symbol :: result :: type :: rest))
    (isResult : IsResult result) : matchParts? form = sumParts? rest := by
  obtain ⟨first, more, named⟩ := isResult
  unfold matchParts? sumParts?
  rw [listed]
  simp only [Option.bind_some, List.getElem?_cons_succ,
    List.getElem?_cons_zero, named, List.drop_succ_cons,
    List.head?_eq_getElem?, ← List.drop_one, List.drop_drop]

theorem matchParts?_of_not_isResult {form symbol sum : Form}
    {rest : List Form} (listed : form.list? = some (symbol :: sum :: rest))
    (noResult : ¬IsResult sum) :
    matchParts? form = sumParts? (sum :: rest) := by
  unfold IsResult at noResult
  unfold matchParts? sumParts?
  rw [listed]
  simp only [Option.bind_some, List.getElem?_cons_succ,
    List.getElem?_cons_zero]
  generalize sum.symbol?.map String.toList = characters at noResult
  split
  · next first rest => exact absurd ⟨first, rest, rfl⟩ noResult
  · simp

theorem sumParts?_eq_some_iff {items : List Form} {sum : String}
    {arguments : List Form} :
    sumParts? items = some (sum, arguments) ↔
      ∃ sumForm rest, items = sumForm :: rest ∧ sumForm.name? = some sum ∧
        rest.tail = arguments := by
  unfold sumParts?
  cases items with
  | nil => simp
  | cons sumForm rest => simp [and_comm]

theorem matchParts?_eq_some_iff {form : Form} {sum : String}
    {arguments items : List Form} (call : form.IsCall "match" items) :
    matchParts? form = some (sum, arguments) ↔
      MatchItems items sum arguments := by
  obtain ⟨symbol, listed, -⟩ := call
  cases items with
  | nil =>
      unfold matchParts?
      rw [listed]
      constructor
      · exact nofun
      · rintro ⟨⟩
  | cons first rest =>
      by_cases result : IsResult first
      · cases rest with
        | nil =>
            obtain ⟨_, _, named⟩ := id result
            unfold matchParts?
            rw [listed]
            simp only [Option.bind_some, List.getElem?_cons_succ,
              List.getElem?_cons_zero, named]
            constructor
            · exact nofun
            · intro parts
              cases parts with
              | statement noResult => exact absurd result noResult
        | cons type rest =>
            rw [matchParts?_of_isResult listed result,
              sumParts?_eq_some_iff]
            constructor
            · rintro ⟨sumForm, rest, rfl, named, rfl⟩
              exact .result result named
            · intro parts
              cases parts with
              | statement noResult => exact absurd result noResult
              | result _ named => exact ⟨_, _, rfl, named, rfl⟩
      · rw [matchParts?_of_not_isResult listed result,
          sumParts?_eq_some_iff]
        constructor
        · rintro ⟨sumForm, rest, same, named, rfl⟩
          cases same
          exact .statement result named
        · intro parts
          cases parts with
          | statement _ named => exact ⟨_, _, rfl, named, rfl⟩
          | result isResult => exact absurd isResult result

theorem mem_coveredVariants_iff {arguments : List Form} {variant : String} :
    variant ∈ coveredVariants arguments ↔ HasCase arguments variant := by
  unfold coveredVariants HasCase
  rw [List.mem_filterMap]
  constructor
  · rintro ⟨form, member, found⟩
    split at found
    · next headed =>
        obtain ⟨items, call⟩ := Form.isCall_of_head? headed
        obtain ⟨symbol, listed, -⟩ := id call
        rw [listed, Option.bind_some] at found
        obtain ⟨name, second, named⟩ := Option.bind_eq_some_iff.mp found
        rw [List.getElem?_cons_succ, ← List.head?_eq_getElem?,
          List.head?_eq_some_iff] at second
        obtain ⟨rest, rfl⟩ := second
        exact ⟨_, vectorUnder_iff.mpr rfl, form, member, name, rest, call,
          named⟩
    · cases found
  · rintro ⟨forms, under, form, member, name, rest, call, named⟩
    rw [vectorUnder_iff.mp under]
    refine ⟨form, member, ?_⟩
    rw [if_pos call.head?]
    obtain ⟨symbol, listed, -⟩ := call
    rw [listed]
    exact named

theorem misses_iff {variants missing : List String} {arguments : List Form} :
    Misses variants arguments missing ↔
      missingVariants variants arguments = missing := by
  have uncovered (variant : String) :
      (!(coveredVariants arguments).contains variant) = true ↔
        ¬HasCase arguments variant := by
    rw [← mem_coveredVariants_iff]
    simp
  unfold missingVariants hasDefault
  cases found : keywordValue? "default" arguments with
  | some value =>
      have keyed := keywordValue?_eq_some_iff.mp found
      constructor
      · intro misses
        cases misses with
        | default => rfl
        | cases noDefault => exact absurd keyed (noDefault value)
      · rintro rfl
        exact .default keyed
  | none =>
      have noDefault := keywordValue?_eq_none_iff.mp found
      constructor
      · intro misses
        cases misses with
        | default keyed => exact absurd keyed (noDefault _)
        | cases _ spec =>
            refine List.filter_congr fun variant _ => ?_
            rw [Bool.eq_iff_iff, uncovered, spec]
      · rintro rfl
        exact .cases noDefault uncovered

/-- A match over a declared sum, by the sum and the variants it misses. -/
def verdict? (declared : SumVariants) (form : Form) :
    Option (String × List String) :=
  if form.head? = some "match" then
    (matchParts? form).bind fun parts =>
      (declared.variants? parts.1).map fun variants =>
        (parts.1, missingVariants variants parts.2)
  else none

theorem verdict?_eq_some_iff {declarations : List Form} {form : Form}
    {sum : String} {missing : List String} :
    verdict? (.collect declarations) form = some (sum, missing) ↔
      IsMatchMissing declarations form sum missing := by
  unfold verdict? IsMatchMissing
  constructor
  · intro found
    split at found
    · next headed =>
        obtain ⟨items, call⟩ := Form.isCall_of_head? headed
        obtain ⟨⟨name, arguments⟩, parts, found⟩ :=
          Option.bind_eq_some_iff.mp found
        obtain ⟨variants, declared, same⟩ := Option.map_eq_some_iff.mp found
        cases same
        exact ⟨items, arguments, variants, call,
          (matchParts?_eq_some_iff call).mp parts,
          variants?_eq_some_iff.mp declared, misses_iff.mpr rfl⟩
    · cases found
  · rintro ⟨items, arguments, variants, call, parts, declared, misses⟩
    rw [if_pos call.head?, (matchParts?_eq_some_iff call).mpr parts,
      Option.bind_some, variants?_eq_some_iff.mpr declared, Option.map_some,
      misses_iff.mp misses]

/-! ## The traversal -/

/-- The metadata of a match over a declared sum: whether it misses nothing,
and what it misses. -/
def annotated (note : Metadata) (missing : List String) : Metadata :=
  (note.insert "exhaustive" (.bool missing.isEmpty)).insert
    "missing-variants" (.vector (missing.map .symbol))

/-- The error of a match that misses variants. -/
def report (sum : String) (missing : List String) (span : Option Span) :
    Diagnostic where
  code := .inexhaustiveMatch
  severity := .error
  message := s!"non-exhaustive match on `{sum}`"
  labels := span.toList.map fun span =>
    ⟨span, "missing " ++
      ", ".intercalate (missing.map fun variant => s!"`{variant}`"), true⟩
  notes := ["add the missing cases or a :default arm"]

theorem diagnostic_eq_report (sum : String) (missing : List String)
    (span : Option Span) : diagnostic sum missing span =
      report sum missing span := by
  cases span <;> rfl

/-- The metadata of a node after it was looked at. -/
def noteAfter (verdict : Form → Option (String × List String))
    (form : Form) : Metadata :=
  match verdict form with
  | none => form.note
  | some (_, missing) => annotated form.note missing

/-- The report on a node. -/
def report? (verdict : Form → Option (String × List String))
    (form : Form) : Option Diagnostic :=
  (verdict form).bind fun (sum, missing) =>
    if missing = [] then none else some (report sum missing form.span?)

variable (declared : SumVariants)

/-- A node that is no list with the head `match` is passed over. -/
theorem verdict?_of_head? {form : Form} (other : form.head? ≠ some "match") :
    verdict? declared form = none := if_neg other

theorem noteAfter_of_none {verdict : Form → Option (String × List String)}
    {form : Form} (nothing : verdict form = none) :
    noteAfter verdict form = form.note := by
  rw [noteAfter, nothing]

theorem report?_of_none {verdict : Form → Option (String × List String)}
    {form : Form} (nothing : verdict form = none) :
    report? verdict form = none := by
  rw [report?, nothing, Option.bind_none]

theorem visit_eq (form : Form) (reports : List Diagnostic) :
    Visitors.visit ((visitors declared).forList? form) form reports =
      (noteAfter (verdict? declared) form,
        (report? (verdict? declared) form).toList ++ reports) := by
  by_cases headed : form.head? = some "match"
  · unfold Visitors.forList? visitors Visitors.visit
    simp only [headed, Option.bind_some, List.lookup_cons_self,
      Option.some_or]
    unfold noteAfter report? verdict? checkMatch
    rw [if_pos headed]
    cases matchParts? form with
    | none => rfl
    | some parts =>
        obtain ⟨sum, arguments⟩ := parts
        simp only [Option.bind_some]
        cases declared.variants? sum with
        | none => rfl
        | some variants =>
            simp only [Option.map_some, Option.bind_some,
              List.isEmpty_iff, diagnostic_eq_report]
            rfl
  · have nothing := verdict?_of_head? declared headed
    rw [noteAfter_of_none nothing, report?_of_none nothing]
    unfold Visitors.forList? visitors
    cases named : form.head? with
    | none => rfl
    | some head =>
        have apart : (head == "match") = false := by
          rw [beq_eq_false_iff_ne]
          exact fun same => headed (same ▸ named)
        simp [List.lookup_cons, apart, Visitors.visit]

mutual

theorem traverse_eq : ∀ (form : Form) (reports : List Diagnostic),
    (visitors declared).traverse form reports =
      (form.renoted (noteAfter (verdict? declared)),
        ((Tree.nodes form).filterMap
          (report? (verdict? declared))).reverse ++ reports)
  | .atom note value, reports => by
      have nothing : verdict? declared (.atom note value) = none :=
        verdict?_of_head? declared nofun
      rw [Tree.renoted, Tree.nodes, noteAfter_of_none nothing,
        List.filterMap_cons_none (report?_of_none nothing)]
      rfl
  | .group note bracket items, reports => by
      by_cases isList : bracket = .list
      · subst isList
        rw [Visitors.traverse]
        dsimp only
        rw [visit_eq, traverseList_eq items, Tree.renoted, Tree.nodes,
          List.filterMap_cons]
        cases report? (verdict? declared) (.group note .list items) <;>
          simp
      · have nothing :
            verdict? declared (.group note bracket items) = none := by
          refine verdict?_of_head? declared fun headed => ?_
          obtain ⟨_, _, listed, -⟩ := Form.isCall_of_head? headed
          cases bracket <;> first | exact isList rfl | cases listed
        rw [Visitors.traverse, traverseList_eq items, Tree.renoted,
          Tree.nodes, noteAfter_of_none nothing,
          List.filterMap_cons_none (report?_of_none nothing)]
        · rfl
        · exact isList
  | .tagged note tag value, reports => by
      have nothing : verdict? declared (.tagged note tag value) = none :=
        verdict?_of_head? declared nofun
      rw [Visitors.traverse, traverse_eq value, Tree.renoted, Tree.nodes,
        noteAfter_of_none nothing,
        List.filterMap_cons_none (report?_of_none nothing)]
      rfl

theorem traverseList_eq : ∀ (forms : List Form) (reports : List Diagnostic),
    (visitors declared).traverseList forms reports =
      (Tree.renotedList (noteAfter (verdict? declared)) forms,
        ((Tree.nodesList forms).filterMap
          (report? (verdict? declared))).reverse ++ reports)
  | [], reports => rfl
  | form :: forms, reports => by
      rw [Visitors.traverseList, traverse_eq form]
      dsimp only
      rw [traverseList_eq forms, Tree.renotedList, Tree.nodesList,
        List.filterMap_append,
        List.reverse_append, List.append_assoc]

end

/-- The forms behind the head of a module; only a list has any. -/
def topLevel (module : Form) : List Form := (module.list?.getD []).tail

theorem declarations_eq {module : Form}
    (notEmpty : module.list? ≠ some []) :
    declarations module = .ok (topLevel module) := by
  unfold declarations topLevel
  cases listed : module.list? with
  | none => rfl
  | some items =>
      cases items with
      | nil => exact absurd listed notEmpty
      | cons head rest => rfl

/-- Two entries are written, and no other is touched. -/
theorem get?_annotated (note : Metadata) (missing : List String)
    (key : String) :
    (annotated note missing).get? key =
      if key = "missing-variants" then
        some (.vector (missing.map .symbol))
      else if key = "exhaustive" then some (.bool missing.isEmpty)
      else note.get? key := by
  rw [annotated, Metadata.get?_insert, Metadata.get?_insert]

/-- The check looks at each node of a module by itself.  There is one error
for each match over a declared sum that misses variants, in the order of the
nodes, and it lists what is missing.  Matches over declared sums have two
entries of their metadata written; nothing else changes. -/
theorem checkMatches_eq_reports {module : Form}
    (notEmpty : module.list? ≠ some []) :
    ∃ verdict : Form → Option (String × List String),
      (∀ form sum missing, verdict form = some (sum, missing) ↔
        IsMatchMissing (topLevel module) form sum missing) ∧
      checkMatches module = .ok
        (module.renoted (noteAfter verdict),
          (Tree.nodes module).filterMap (report? verdict)) ∧
      (module.renoted (noteAfter verdict)).datum = module.datum ∧
      ∀ (note : Metadata) (missing : List String) (key : String),
        (annotated note missing).get? key =
          if key = "missing-variants" then
            some (.vector (missing.map .symbol))
          else if key = "exhaustive" then some (.bool missing.isEmpty)
          else note.get? key := by
  refine ⟨verdict? (.collect (topLevel module)),
    fun _ _ _ => verdict?_eq_some_iff, ?_, Tree.datum_renoted _ module,
    get?_annotated⟩
  rw [checkMatches, declarations_eq notEmpty, Except.map]
  dsimp only
  rw [traverse_eq, List.append_nil, List.reverse_reverse]

/-- A sum, and a match without a default in the case of another one. -/
def nestedMatches : Form :=
  let variant (name : String) : Form :=
    Form.keywordCall "variant" [("name", Form.symbol name)]
  let case (items : List Form) : Form := Form.list (Form.symbol "case" :: items)
  Form.list [Form.symbol "module",
    Form.keywordCall "sum" [("name", Form.symbol "S"),
      ("variants", Form.vector [variant "A", variant "B"])],
    Form.list [Form.symbol "match", Form.symbol "S", Form.symbol "%x",
      Form.keyword "default", Form.vector [],
      Form.keyword "cases", Form.vector [case [Form.symbol "A",
        Tree.group (.ofSpan ⟨⟨4, 1⟩, ⟨4, 9⟩⟩) .list
          [Form.symbol "match", Form.symbol "%r", Form.symbol "i32",
            Form.symbol "S", Form.symbol "%x", Form.keyword "cases",
            Form.vector [case [Form.symbol "B"]]]]]]]

theorem checkMatches_eq_reports_nestedMatches :
    nestedMatches.list? ≠ some [] ∧
    ∃ verdict : Form → Option (String × List String),
      (∀ form sum missing, verdict form = some (sum, missing) ↔
        IsMatchMissing (topLevel nestedMatches) form sum missing) ∧
      checkMatches nestedMatches = .ok
        (nestedMatches.renoted (noteAfter verdict),
          (Tree.nodes nestedMatches).filterMap (report? verdict)) ∧
      (nestedMatches.renoted (noteAfter verdict)).datum =
        nestedMatches.datum := by
  have notEmpty : nestedMatches.list? ≠ some [] := nofun
  obtain ⟨verdict, decides, checked, same, -⟩ :=
    checkMatches_eq_reports notEmpty
  exact ⟨notEmpty, verdict, decides, checked, same⟩

example : (checkMatches nestedMatches).toOption.map Prod.snd =
    some [report "S" ["A"] (some ⟨⟨4, 1⟩, ⟨4, 9⟩⟩)] := by
  decide +kernel

end Coverage

end FormCompiler
