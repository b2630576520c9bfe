import FormCompiler.Proofs.FormUses

/-!
# The parts of constructs

Constructs with bodies read their cases, bindings and bodies from the form
that is emitted.  No form is read twice, so the uses of names that the parts
show are among those of the whole form.
-/

namespace FormCompiler

open Ir

variable {Result Other Item : Type} {uses : List NameUse}

/-! ## What is read -/

/-- What is read from the elements of a list, part by part. -/
theorem Gives.mapM {read : Item → Handler Result}
    {part : Result → List NameUse} {whole : Item → List NameUse}
    (each : ∀ item, Gives (read item) fun result =>
      List.Subperm (part result) (whole item)) (items : List Item) :
    Gives (items.mapM read) fun results =>
      List.Subperm (results.flatMap part) (items.flatMap whole) := by
  induction items with
  | nil => exact .pure (.refl [])
  | cons item items ih =>
      rw [List.mapM_cons]
      refine (each item).bind fun result fits => ih.bind fun results all => ?_
      exact .pure (fits.append all)

theorem head?_of_list {form head : Form} {rest : List Form}
    (found : form.list? = some (head :: rest)) :
    form.head? = head.symbol? := by
  rw [Tree.head?, found]
  rfl

theorem gives_readLocal (shape : String) (form : Form) :
    Gives (readLocal shape form) fun result =>
      List.Subperm [.slotted result.1] (formUses form) := by
  unfold readLocal
  split
  · next head typeForm nameForm found =>
      refine .ite (fun _ => .throw _) fun isLocal => ?_
      refine .orFail_step _ fun name named => .skip fun type => .pure ?_
      have own : ownUses form = [.slotted name] := by
        unfold ownUses formRole
        rw [head?_of_list found, not_not.mp isLocal, found]
        simp [usesAt, named, addressUses]
      rw [formUses_of_list found, own]
      exact (List.sublist_append_left _ _).subperm
  · exact .throw _

theorem gives_readBinding (sum : String) (variant : Variant) (form : Form) :
    Gives (readBinding sum variant form) fun binding =>
      List.Subperm (bindingUses binding) (formUses form) := by
  refine .orFail_step _ fun (name, index) parts => .skip fun table => ?_
  refine .orFail_step _ fun (offset, type) _ => .pure ?_
  split at parts
  · next head nameForm indexForm found =>
      split at parts
      · next isBind =>
          obtain ⟨given, named, rest⟩ := Option.bind_eq_some_iff.mp parts
          obtain ⟨number, _, same⟩ := Option.bind_eq_some_iff.mp rest
          cases same
          have own : ownUses form = results name := by
            unfold ownUses formRole
            rw [head?_of_list found, isBind, found]
            simp [usesAt, named]
          rw [formUses_of_list found, own]
          exact (List.sublist_append_left _ _).subperm
      · cases parts
  · cases parts

/-- The uses of an arm of a match. -/
def armUses (arm : Arm) : List NameUse :=
  arm.bindings.flatMap bindingUses ++ arm.body.flatMap formUses

theorem uses_of_bodyAndValue (items : List Form) :
    List.Subperm ((bodyAndValue items).1.flatMap formUses)
      (items.flatMap formUses) :=
  ((splitBody_sublist none items).flatMap formUses).subperm

theorem uses_of_keyedBody (arguments : KeywordArguments) :
    List.Subperm ((keyedBody arguments).1.flatMap formUses)
      (((arguments.vector? "body").getD []).flatMap formUses) :=
  uses_of_bodyAndValue _

theorem uses_of_caseParts {rest : List Form}
    {parts : List Form × List Form × Option String}
    (found : caseParts rest = some parts) :
    List.Subperm (parts.1.flatMap formUses ++ parts.2.1.flatMap formUses)
      (rest.flatMap formUses) := by
  unfold caseParts at found
  split at found
  · next form =>
      obtain ⟨elements, vector, rfl⟩ := Option.map_eq_some_iff.mp found
      simpa [formUses_of_vector vector] using uses_of_bodyAndValue elements
  · obtain rfl := Option.some.inj found
    have keyed := KeywordArguments.uses_of_vectors ["binds", "body"]
      (by decide) rest
    refine List.Subperm.trans ?_ keyed
    rw [List.flatMap_cons, List.flatMap_singleton]
    exact (List.Subperm.refl _).append (uses_of_keyedBody _)

theorem gives_readCase (layout : SumLayout) (sum : String) (form : Form) :
    Gives (readCase layout sum form) fun found =>
      List.Subperm (found.toList.flatMap fun tagged => armUses tagged.arm)
        (formUses form) := by
  refine .ite (fun _ => .throw _) fun _ => ?_
  refine .orFail_step _ fun items given => .parse fun name _ => ?_
  split
  · exact .skip fun _ => .pure List.nil_subperm
  · refine .parse fun rest read => ?_
    refine .orFail_step _ fun (binds, body, value) parts => ?_
    refine (Gives.mapM (gives_readBinding sum _) binds).bind
      fun bindings fits => .pure ?_
    obtain rfl := itemsFrom_eq_ok read
    have inside := (fits.append (.refl (body.flatMap formUses))).trans
      ((uses_of_caseParts parts).trans
        ((List.drop_sublist 2 items).flatMap formUses).subperm)
    rw [formUses_of_list given]
    simpa [armUses] using
      inside.trans (List.sublist_append_right _ _).subperm

theorem gives_readCases (layout : SumLayout) (sum : String)
    (forms : List Form) :
    Gives (readCases layout sum forms) fun arms =>
      List.Subperm (arms.flatMap fun tagged => armUses tagged.arm)
        (forms.flatMap formUses) := by
  induction forms with
  | nil => exact .pure (.refl [])
  | cons form forms ih =>
      refine (gives_readCase layout sum form).bind fun arm fits => ?_
      refine ih.bind fun arms all => .pure ?_
      rw [List.flatMap_append, List.flatMap_cons]
      exact fits.append all

theorem gives_readDefault (form : Form) :
    Gives (readDefault form) fun arm =>
      List.Subperm (armUses arm) (formUses form) := by
  unfold readDefault
  split
  · next items given =>
      refine .pure ?_
      rw [formUses_of_vector given]
      exact uses_of_bodyAndValue items
  · refine .ite (fun _ => .throw _) fun isDefault => .pure ?_
    refine (uses_of_keyedBody _).trans ?_
    obtain ⟨items, given, -⟩ := Option.bind_eq_some_iff.mp
      (not_not.mp isDefault)
    have keyed := KeywordArguments.uses_of_vectors ["body"] (by decide)
      items.tail
    rw [formUses_of_list given]
    refine List.Subperm.trans ?_ (List.sublist_append_right _ _).subperm
    have inside := keyed.trans
      ((List.tail_sublist items).flatMap formUses).subperm
    simpa [KeywordArguments.ofForm, given] using inside

/-- The result of a match is the name that the form shows, and what follows
is read from the rest of the form. -/
theorem gives_readResult (items : List Form) :
    Gives (readResult items) fun (result, rest) =>
      List.Subperm (result.toList.flatMap fun result =>
          results result.destination) (opcodeUses .sumMatch items) ∧
        List.Sublist rest items := by
  unfold readResult
  split
  · next head destination rest =>
      refine .ite (fun isLocal => ?_) fun _ =>
        .pure ⟨List.nil_subperm, List.sublist_cons_self _ _⟩
      refine .orFail_step _ fun name named => ?_
      split
      · next typeForm rest =>
          refine .skip fun type => .pure ⟨?_, ?_⟩
          · simp [opcodeUses, usesAt, isLocal, named, List.Subperm.refl]
          · exact .cons _ (.cons _ (.cons _ (.refl rest)))
      · exact .throw _
  · exact .pure ⟨List.nil_subperm, List.nil_sublist _⟩

/-! ## Switches and blocks -/

/-- The cases keep their bodies when their blocks are added. -/
theorem yields_placed (id : Nat) (cases : List (Int64 × List Form)) :
    Yields (cases.mapM (placeCase id)) fun placed =>
      placed.map PlacedCase.body = cases.map Prod.snd := by
  intro environment state
  induction cases generalizing state with
  | nil => rfl
  | cons entry cases ih =>
      rw [List.mapM_cons]
      exact congrArg (entry.2 :: ·) (ih _)

theorem uses_of_switchCase {form : Form} {entry : Int64 × List Form}
    (found : switchCase? form = some entry) :
    List.Subperm (entry.2.flatMap formUses) (formUses form) := by
  unfold switchCase? at found
  split at found
  · next head value body given =>
      split at found
      · obtain ⟨number, _, rest⟩ := Option.bind_eq_some_iff.mp found
        obtain ⟨elements, vector, same⟩ := Option.bind_eq_some_iff.mp rest
        cases same
        rw [formUses_of_list given, ← formUses_of_vector vector]
        have inside : List.Sublist [body] [head, value, body] :=
          .cons _ (.cons _ (.refl _))
        have part := (inside.flatMap formUses).subperm.trans
          (List.sublist_append_right (ownUses form) _).subperm
        simpa using part
      · cases found
  · cases found

theorem uses_of_switchCases {forms : List Form}
    {cases : List (Int64 × List Form)}
    (found : forms.mapM switchCase? = some cases) :
    List.Subperm (cases.flatMap fun entry => entry.2.flatMap formUses)
      (forms.flatMap formUses) := by
  induction forms generalizing cases with
  | nil =>
      cases found
      exact .refl []
  | cons form forms ih =>
      rw [List.mapM_cons] at found
      obtain ⟨entry, first, rest⟩ := Option.bind_eq_some_iff.mp found
      obtain ⟨entries, others, same⟩ := Option.bind_eq_some_iff.mp rest
      cases same
      exact (uses_of_switchCase first).append (ih others)

theorem uses_of_keyedBlockParts {items locals body : List Form}
    {shape : String}
    (found : keyedBlockParts items shape = .ok (locals, body)) :
    List.Subperm (locals.flatMap formUses ++ body.flatMap formUses)
      (items.flatMap formUses) := by
  obtain ⟨given, rfl⟩ := keyedBlockParts_eq_ok found
  have parts := KeywordArguments.uses_of_vectors ["locals", "body"]
    (by decide) items.tail
  rw [List.flatMap_cons, List.flatMap_singleton, given] at parts
  exact parts.trans ((List.tail_sublist items).flatMap formUses).subperm

theorem uses_of_blockParts {items locals body : List Form} {shape : String}
    (found : blockParts items shape = .ok (locals, body)) :
    List.Subperm (locals.flatMap formUses ++ body.flatMap formUses)
      (items.flatMap formUses) := by
  unfold blockParts at found
  split at found
  · next head form =>
      split at found
      · next elements vector =>
          cases found
          rw [← formUses_of_vector vector]
          simpa using (List.sublist_append_right (formUses head)
            (formUses form)).subperm
      · exact uses_of_keyedBlockParts found
  · exact uses_of_keyedBlockParts found

/-! ## Matches -/

/-- The arms that get blocks are arms of the match. -/
theorem yields_placeArms (arms : List TaggedArm) (id : Nat) :
    Yields (placeArms arms id) fun placed =>
      List.Sublist (placed.map PlacedArm.tagged) arms := by
  intro environment state
  have zipped (arms : List TaggedArm) (blocks : List (BlockId × BlockId)) :
      List.Sublist ((arms.zip blocks).map Prod.fst) arms := by
    induction arms generalizing blocks with
    | nil => exact List.nil_sublist _
    | cons arm arms ih =>
        cases blocks with
        | nil => exact List.nil_sublist _
        | cons block blocks => exact .cons_cons arm (ih blocks)
  show List.Sublist (List.map _ (List.map _ (arms.zip _))) arms
  rw [List.map_map]
  exact zipped arms _

theorem gives_defaultArm (form : Option Form) :
    Gives (form.mapM readDefault) fun arm =>
      List.Subperm (arm.toList.flatMap armUses)
        (form.toList.flatMap formUses) := by
  cases form with
  | none => exact .pure (.refl [])
  | some form =>
      show Gives (some <$> readDefault form) _
      rw [map_eq_pure_bind]
      refine (gives_readDefault form).bind fun arm fits => .pure ?_
      simpa using fits

/-- The uses of the cases and the default of a match are among those of the
form. -/
theorem uses_of_matchParts {items rest : List Form}
    (inside : List.Sublist rest items) :
    let arguments := KeywordArguments.ofItems (rest.drop 2)
    List.Subperm
      (((arguments.vector? "cases").getD []).flatMap formUses ++
        (arguments.get? "default").toList.flatMap formUses)
      (items.flatMap formUses) := by
  have values := KeywordArguments.uses_of_values ["cases", "default"]
    (by decide) (rest.drop 2)
  rw [List.flatMap_cons, List.flatMap_singleton] at values
  have parts := (KeywordArguments.uses_of_vector
    (.ofItems (rest.drop 2)) "cases").append (.refl _) |>.trans values
  exact parts.trans
    (((List.drop_sublist 2 rest).trans inside).flatMap formUses).subperm

end FormCompiler
