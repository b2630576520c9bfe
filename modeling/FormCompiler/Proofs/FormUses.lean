import Mathlib.Data.List.Flatten
import FormCompiler.Proofs.CallEffects

/-!
# The uses that forms show

What a form does with names can be read off it: a list form uses certain names
by itself, and the list forms nested in it use theirs.  The parts of a form
that are emitted, or read as locals and bindings, stand at different places in
it, so the uses of all of them together are among those of the form.
-/

namespace FormCompiler

/-- The uses of names by a form of an opcode, apart from the forms in it. -/
def opcodeUses (opcode : Opcode) (items : List Form) : List NameUse :=
  match opcode with
  | .localVariable =>
      usesAt variableUses items 1 ++ usesAt initialUses items 3
  | .assign => usesAt variableUses items 1
  | .address => usesAt addressUses items 3 ++ usesAt results items 1
  | .vaStart => usesAt listUses items 1
  | .sumMatch =>
      if items[1]?.any isLocalReference then usesAt results items 1 else []
  | opcode => if opcode.definesResult then usesAt results items 1 else []

/-- What a list form is to the body that it stands in. -/
inductive FormRole where
  | nothing
  | localVariable
  | binding
  | instruction (opcode : Opcode)

def formRole (form : Form) : FormRole :=
  match form.head? with
  | none => .nothing
  | some "local" => .localVariable
  | some "bind" => .binding
  | some head => (Opcode.ofHead? head).elim .nothing .instruction

/-- Neither locals nor bindings are instructions. -/
theorem formRole_of_opcode {form : Form} {opcode : Opcode}
    (isOpcode : form.head?.bind Opcode.ofHead? = some opcode) :
    formRole form = .instruction opcode := by
  have noLocal : Opcode.ofHead? "local" = none := by decide
  have noBinding : Opcode.ofHead? "bind" = none := by decide
  unfold formRole
  split
  · next none => rw [none] at isOpcode; cases isOpcode
  · next isLocal => simp [isLocal, noLocal] at isOpcode
  · next isBind => simp [isBind, noBinding] at isOpcode
  · next head _ _ same =>
      rw [same, Option.bind_some] at isOpcode
      rw [isOpcode, Option.elim_some]

/-- The uses of names by a list form, apart from the forms in it. -/
def ownUses (form : Form) : List NameUse :=
  let items := form.list?.getD []
  match formRole form with
  | .nothing => []
  | .localVariable => usesAt addressUses items 2
  | .binding => usesAt results items 1
  | .instruction opcode => opcodeUses opcode items

/-- All uses of names by a form. -/
def formUses (form : Form) : List NameUse :=
  (nestedLists form).flatMap ownUses

theorem nestedListsAll_eq (forms : List Form) :
    nestedListsAll forms = forms.flatMap nestedLists := by
  induction forms with
  | nil => rfl
  | cons form forms ih =>
      rw [nestedListsAll, ih, List.flatMap_cons]

theorem flatMap_nestedListsAll (forms : List Form) :
    (nestedListsAll forms).flatMap ownUses = forms.flatMap formUses := by
  rw [nestedListsAll_eq, List.flatMap_assoc]
  rfl

theorem formUses_of_list {form : Form} {items : List Form}
    (found : form.list? = some items) :
    formUses form = ownUses form ++ items.flatMap formUses := by
  unfold Tree.list? at found
  split at found
  · cases found
    rw [formUses, nestedLists, List.flatMap_cons, flatMap_nestedListsAll]
  · cases found

theorem formUses_of_vector {form : Form} {items : List Form}
    (found : form.vector? = some items) :
    formUses form = items.flatMap formUses := by
  unfold Tree.vector? at found
  split at found
  · cases found
    rw [formUses, nestedLists, flatMap_nestedListsAll]
  · cases found

/-! ## Parts of forms -/

theorem Subperm.flatMap {Item Other : Type} {items more : List Item}
    (fewer : List.Subperm items more) (part : Item → List Other) :
    List.Subperm (items.flatMap part) (more.flatMap part) := by
  obtain ⟨middle, perm, sublist⟩ := fewer
  exact (perm.flatMap_right part).subperm_right.mp
    (sublist.flatMap part).subperm

theorem Subperm.flatMap_left {Item Other : Type} {items : List Item}
    {part more : Item → List Other}
    (fewer : ∀ item ∈ items, List.Subperm (part item) (more item)) :
    List.Subperm (items.flatMap part) (items.flatMap more) := by
  induction items with
  | nil => exact .refl []
  | cons item items ih =>
      rw [List.forall_mem_cons] at fewer
      exact fewer.1.append (ih fewer.2)

/-- The uses of the vector that a form is, if it is one. -/
theorem uses_of_vector? (form : Form) :
    List.Subperm ((form.vector?.getD []).flatMap formUses)
      (formUses form) := by
  cases found : form.vector? with
  | none => exact List.nil_subperm
  | some items => rw [formUses_of_vector found, Option.getD_some]

/-- The uses of a vector at a position are among those of the form. -/
theorem uses_of_vectorAt {items body : List Form} {index : Nat}
    {shape : String} (found : vectorAt items index shape = .ok body) :
    List.Subperm (body.flatMap formUses) (items.flatMap formUses) := by
  unfold vectorAt at found
  split at found
  · next elements same =>
      cases found
      obtain ⟨item, given, vector⟩ := Option.bind_eq_some_iff.mp same
      rw [← formUses_of_vector vector]
      have member := List.singleton_sublist.mpr (List.mem_of_getElem? given)
      simpa using (member.flatMap formUses).subperm
  · cases found

/-- The uses of vectors at two positions are among those of the form. -/
theorem uses_of_vectorsAt {items body rest : List Form} {first second : Nat}
    {shape : String} (order : first < second)
    (found : vectorAt items first shape = .ok body)
    (later : vectorAt items second shape = .ok rest) :
    List.Subperm (body.flatMap formUses ++ rest.flatMap formUses)
      (items.flatMap formUses) := by
  have early : vectorAt (items.take second) first shape = .ok body := by
    rw [← found, vectorAt, vectorAt, List.getElem?_take_of_lt order]
  have late : vectorAt (items.drop second) 0 shape = .ok rest := by
    rw [← later, vectorAt, vectorAt, List.getElem?_drop, Nat.add_zero]
  have whole : items.flatMap formUses = (items.take second).flatMap formUses ++
      (items.drop second).flatMap formUses := by
    rw [← List.flatMap_append, List.take_append_drop]
  rw [whole]
  exact (uses_of_vectorAt early).append (uses_of_vectorAt late)

namespace KeywordArguments

theorem readPairs_sublist (items : List Form) :
    List.Sublist ((readPairs items).map Prod.snd) items := by
  fun_induction readPairs items with
  | case1 key value rest name found ih =>
      exact .cons _ (.cons_cons _ ih)
  | case2 => exact List.nil_sublist _
  | case3 => exact List.nil_sublist _

/-- Different keywords have values at different places. -/
theorem lookup_subperm {keys : List String} (distinct : keys.Nodup)
    (pairs : List (String × Form)) :
    List.Subperm (keys.flatMap fun key => (pairs.lookup key).toList)
      (pairs.map Prod.snd) := by
  induction pairs generalizing keys with
  | nil =>
      have none : keys.flatMap (fun key =>
          (([] : List (String × Form)).lookup key).toList) = [] := by simp
      rw [none]
      exact List.nil_subperm
  | cons pair pairs ih =>
      have others {keys : List String} (missing : pair.1 ∉ keys) :
          (keys.flatMap fun key => ((pair :: pairs).lookup key).toList) =
            keys.flatMap fun key => (pairs.lookup key).toList := by
        refine List.flatMap_congr fun key member => ?_
        have apart : (key == pair.1) = false := by
          simpa using fun same : key = pair.1 => missing (same ▸ member)
        rw [List.lookup_cons, apart]
      by_cases member : pair.1 ∈ keys
      · have first := (List.perm_cons_erase member).flatMap_right
          fun key => ((pair :: pairs).lookup key).toList
        refine first.subperm.trans ?_
        rw [List.flatMap_cons, others (distinct.not_mem_erase),
          List.lookup_cons, beq_self_eq_true]
        exact (List.subperm_cons pair.2).mpr (ih (distinct.erase _))
      · rw [others member]
        exact (ih distinct).trans (List.sublist_cons_self _ _).subperm

/-- The uses of the values of some keywords are among those of the
arguments. -/
theorem uses_of_values (keys : List String) (distinct : keys.Nodup)
    (items : List Form) :
    List.Subperm
      (keys.flatMap fun key =>
        ((ofItems items).get? key).toList.flatMap formUses)
      (items.flatMap formUses) := by
  rw [← List.flatMap_assoc]
  refine Subperm.flatMap ?_ formUses
  exact (lookup_subperm distinct _).trans (readPairs_sublist items).subperm

theorem uses_of_vector (arguments : KeywordArguments) (key : String) :
    List.Subperm (((arguments.vector? key).getD []).flatMap formUses)
      ((arguments.get? key).toList.flatMap formUses) := by
  unfold vector?
  cases arguments.get? key with
  | none => exact .refl []
  | some form => simpa using uses_of_vector? form

/-- The uses of the vectors under some keywords are among those of the
arguments. -/
theorem uses_of_vectors (keys : List String) (distinct : keys.Nodup)
    (items : List Form) :
    List.Subperm
      (keys.flatMap fun key =>
        (((ofItems items).vector? key).getD []).flatMap formUses)
      (items.flatMap formUses) :=
  (Subperm.flatMap_left fun key _ => uses_of_vector _ key).trans
    (uses_of_values keys distinct items)

end KeywordArguments

/-- The instructions of a body are among its items. -/
theorem splitBody_sublist (value : Option String) (items : List Form) :
    List.Sublist (splitBody value items).1 items := by
  fun_induction splitBody value items with
  | case1 => exact .refl []
  | case2 => exact List.nil_sublist _
  | case3 value item found operand rest ih => exact .cons _ (.cons _ ih)
  | case4 value item rest other body last split ih =>
      rw [split] at ih
      exact .cons_cons _ ih

end FormCompiler
