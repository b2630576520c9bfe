import Mathlib
import FormCompiler.Proofs.SourcePlaces

/-!
# Spans and the text they cover

A span is kept as four entries of a form's metadata, and these entries give it
back.  Its start leads to the first character of the form in the text.

The end of a span is meant to be the last character of the form.  It is, where
that is a character of ASCII; behind any other character the span runs one
character too far.  The text of a form, from its first to its last character,
is read as that form alone.
-/

namespace FormCompiler

/-! ## Spans in metadata -/

theorem lookup_cons_eq (key : String) (entry : String × Datum)
    (entries : List (String × Datum)) :
    (entry :: entries).lookup key =
      if key = entry.1 then some entry.2 else entries.lookup key := by
  rw [List.lookup_cons]
  by_cases own : key = entry.1
  · rw [if_pos own, beq_iff_eq.mpr own]
  · rw [if_neg own, beq_eq_false_iff_ne.mpr own]

namespace Metadata

/-- The latest entry of a name is found, and no other name is touched. -/
theorem lookup_insertEntry (key other : String) (value : Datum)
    (entries : List (String × Datum)) :
    (insertEntry other value entries).lookup key =
      if key = other then some value else entries.lookup key := by
  induction entries with
  | nil => exact lookup_cons_eq key (other, value) []
  | cons entry entries ih =>
      rw [insertEntry]
      by_cases found : other = entry.1
      · rw [if_pos found, lookup_cons_eq, lookup_cons_eq, found]
        by_cases own : key = entry.1 <;> simp [own]
      · rw [if_neg found]
        split
        · rw [lookup_cons_eq]
        · rw [lookup_cons_eq, lookup_cons_eq, ih]
          by_cases own : key = other
          · rw [if_pos own, if_neg (own ▸ found), if_pos own]
          · rw [if_neg own, if_neg own]

theorem get?_insert (metadata : Metadata) (key other : String)
    (value : Datum) :
    (metadata.insert other value).get? key =
      if key = other then some value else metadata.get? key :=
  lookup_insertEntry key other value metadata.entries

theorem coordinate_ofNat {number : Nat} (small : number < 2 ^ 32) :
    (Int64.ofNat number).toUInt64.toUInt32.toNat = number := by
  simp
  omega

/-- A recorded span is found again, if its coordinates fit. -/
theorem span?_ofSpan {span : Span}
    (startLine : span.start.line < 2 ^ 32)
    (startColumn : span.start.column < 2 ^ 32)
    (lastLine : span.last.line < 2 ^ 32)
    (lastColumn : span.last.column < 2 ^ 32) :
    (ofSpan span).span? = some span := by
  have reads (key : String) (number : Nat) (small : number < 2 ^ 32)
      (found : (ofSpan span).get? key = some (.int (Int64.ofNat number))) :
      (ofSpan span).coordinate? key = some number := by
    rw [coordinate?, found]
    exact congrArg some (coordinate_ofNat small)
  have line := reads "line" _ startLine (by simp [ofSpan, get?_insert])
  have column := reads "col" _ startColumn (by simp [ofSpan, get?_insert])
  have endLine := reads "end-line" _ lastLine (by
    simp [ofSpan, get?_insert])
  have endColumn := reads "end-col" _ lastColumn (by
    simp [ofSpan, get?_insert])
  rw [span?, line, column, endLine, endColumn]

end Metadata

/-! ## Ends of spans -/

/-- All lines and columns of a text are below `2 ^ 32`. -/
def FitsCoordinates (source : String) : Prop :=
  ∀ offset, (place source.toList offset).line < 2 ^ 32 ∧
    (place source.toList offset).column < 2 ^ 32

theorem advance_le (position : Position) (characters : List Char) :
    (position.advance characters).line ≤
        position.line + characters.length ∧
      (position.advance characters).column ≤
        position.column + characters.length := by
  induction characters generalizing position with
  | nil => exact ⟨Nat.le_refl _, Nat.le_refl _⟩
  | cons character characters ih =>
      have next := ih (position.after character)
      have step : (position.after character).line ≤ position.line + 1 ∧
          (position.after character).column ≤ position.column + 1 := by
        unfold Position.after
        split <;> simp
      rw [Position.advance_cons, List.length_cons]
      omega

theorem fitsCoordinates_of_length {source : String}
    (short : source.toList.length + 1 < 2 ^ 32) : FitsCoordinates source := by
  intro offset
  have bounds := advance_le .origin (source.toList.take offset)
  have taken := List.length_take_le' offset source.toList
  rw [show Position.origin.line = 1 from rfl,
    show Position.origin.column = 1 from rfl] at bounds
  unfold place
  omega

/-- The end of what a span covers, for a form that ends at `stop`: behind a
character outside ASCII it is one too far. -/
def recordedStop (source : List Char) (stop : Nat) : Nat :=
  match source[stop - 1]? with
  | some last => if last.toNat < 128 then stop else stop + 1
  | none => stop

theorem stop_le_recordedStop (source : List Char) (stop : Nat) :
    stop ≤ recordedStop source stop := by
  unfold recordedStop
  split
  · split
    · exact Nat.le_refl _
    · exact Nat.le_succ _
  · exact Nat.le_refl _

theorem take_eq_append_getElem {source : List Char} {stop : Nat}
    {last : Char} (some : 0 < stop) (found : source[stop - 1]? = .some last) :
    source.take stop = source.take (stop - 1) ++ [last] := by
  obtain ⟨before, rfl⟩ := Nat.exists_eq_add_one.mpr some
  rw [Nat.add_sub_cancel] at found ⊢
  rw [List.take_add_one, found]
  rfl

/-- The recorded end is the place of a character; a line end is never the last
character of a token. -/
theorem endPlace_eq {source : List Char} {stop : Nat} {last : Char}
    (some : 0 < stop) (found : source[stop - 1]? = .some last)
    (notLineEnd : last ≠ '\n') :
    endPlace source stop = place source (recordedStop source stop - 1) := by
  have taken := take_eq_append_getElem some found
  rw [endPlace, lastPosition, recordedStop, found, taken,
    List.getLast?_concat, List.dropLast_concat]
  simp only
  by_cases ascii : last.toNat < 128
  · rw [if_pos ascii, if_pos ascii]
    rfl
  · rw [if_neg ascii, if_neg ascii, Nat.add_sub_cancel, place, taken,
      Position.advance_append]
    simp only [Position.advance_cons, Position.advance_nil, Position.after,
      if_neg notLineEnd]

/-- The range that a span covers, for a form between two offsets. -/
theorem charRange_places {source : String} {start stop : Nat} {last : Char}
    (some : start < stop) (found : source.toList[stop - 1]? = .some last) :
    charRange source ⟨place source.toList start,
      place source.toList (recordedStop source.toList stop - 1)⟩ =
      (start, recordedStop source.toList stop) := by
  obtain ⟨inside, -⟩ := List.getElem?_eq_some_iff.mp found
  have within : recordedStop source.toList stop - 1 ≤
      source.toList.length := by
    rw [recordedStop, found]
    simp only
    split <;> omega
  have upper := stop_le_recordedStop source.toList stop
  rw [charRange, charOffset_place (by omega), charOffset_place within]
  rw [Nat.sub_add_cancel (by omega), Nat.max_eq_left (by omega)]

/-! ## Characters at the ends of a form -/

/-- A character that is not skipped between tokens. -/
def Solid (character : Char) : Prop :=
  isBlank character = false ∧ character ≠ ';'

theorem Token.WrittenAs.head_solid {token : Token} {text after : List Char}
    (written : token.WrittenAs text after) :
    ∃ first ∈ text.head?, Solid first := by
  obtain ⟨first, more, rfl, notBlank, notComment, -⟩ := written.lexeme_eq
  exact ⟨first, rfl, notBlank, notComment⟩

theorem solid_of_isName {name : String} {mark : Char}
    (named : isName name = true) :
    ∃ last ∈ (mark :: name.toList).getLast?, Solid last := by
  obtain ⟨some, inside⟩ := Bool.and_eq_true_iff.mp named
  rw [List.getLast?_cons]
  have notEmpty : name.toList ≠ [] := by simpa using some
  refine ⟨name.toList.getLast notEmpty, ?_, not_skipped_of_isWordChar
    (List.all_eq_true.mp inside _ (List.getLast_mem notEmpty))⟩
  rw [List.getLast?_eq_some_getLast notEmpty]
  rfl

theorem Token.WrittenAs.getLast_solid {token : Token} {text after : List Char}
    (written : token.WrittenAs text after) :
    ∃ last ∈ text.getLast?, Solid last := by
  cases written with
  | opening bracket =>
      cases bracket <;> exact ⟨_, rfl, by decide, by decide⟩
  | closing bracket =>
      cases bracket <;> exact ⟨_, rfl, by decide, by decide⟩
  | tag named => exact solid_of_isName named
  | string =>
      refine ⟨'"', ?_, by decide, by decide⟩
      rw [← List.cons_append, List.getLast?_concat]
      rfl
  | keyword named => exact solid_of_isName named
  | @word first more _ _ starts inside =>
      have whole : (first :: more).all isWordChar = true := by
        rw [List.all_cons, Bool.and_eq_true]
        exact ⟨isWordChar_of_starts starts, inside⟩
      exact ⟨(first :: more).getLast (List.cons_ne_nil _ _),
        List.getLast?_eq_some_getLast _, not_skipped_of_isWordChar
          (List.all_eq_true.mp whole _ (List.getLast_mem _))⟩

/-! ## Slices -/

/-- The characters of a text between two offsets. -/
def slice (source : List Char) (left right : Nat) : List Char :=
  (source.drop left).take (right - left)

theorem length_slice {source : List Char} {left right : Nat}
    (within : right ≤ source.length) :
    (slice source left right).length = right - left := by
  rw [slice, List.length_take, List.length_drop]
  omega

/-- What is found at an offset is found in the slice, up to its end. -/
theorem drop_slice {source text after : List Char} {left start right : Nat}
    (found : source.drop start = text ++ after) (lower : left ≤ start)
    (upper : start + text.length ≤ right) :
    (slice source left right).drop (start - left) =
      text ++ after.take (right - (start + text.length)) := by
  rw [slice, List.drop_take, List.drop_drop, Nat.add_sub_cancel' lower, found,
    List.take_append, List.take_of_length_le (by omega)]
  congr 2
  omega

theorem mem_head?_of_take {Item : Type} {items : List Item} {item : Item}
    {length : Nat} (first : item ∈ (items.take length).head?) :
    item ∈ items.head? := by
  rw [List.head?_take] at first
  split at first
  · cases first
  · exact first

theorem Delimited.take {after : List Char} (delimited : Delimited after)
    (length : Nat) : Delimited (after.take length) := by
  cases length with
  | zero => rfl
  | succ length =>
      cases after with
      | nil => rfl
      | cons character rest =>
          rw [Delimited, List.takeWhile_cons] at delimited
          split at delimited
          · cases delimited
          · next outside => exact delimited_cons (by simpa using outside)

theorem Token.WrittenAs.take {token : Token} {text after : List Char}
    (written : token.WrittenAs text after) (length : Nat) :
    token.WrittenAs text (after.take length) := by
  cases written with
  | opening bracket => exact .opening bracket _
  | closing bracket => exact .closing bracket _
  | tag named delimited => exact .tag named (delimited.take length)
  | string spells => exact .string spells _
  | keyword named delimited => exact .keyword named (delimited.take length)
  | word starts inside read delimited =>
      exact .word starts inside read (delimited.take length)

section

variable {source : List Char} {left right : Nat}

theorem Stands.slice {token : Token} {start stop : Nat}
    (stands : Stands source token start stop) (lower : left ≤ start)
    (upper : stop ≤ right) :
    Stands (slice source left right) token (start - left) (stop - left) := by
  obtain ⟨text, after, found, rfl, written⟩ := stands
  exact ⟨text, _, drop_slice found lower upper, by omega, written.take _⟩

theorem Skips.slice {start stop : Nat} (skips : Skips source start stop)
    (lower : left ≤ start) (upper : stop ≤ right) :
    Skips (slice source left right) (start - left) (stop - left) := by
  induction skips with
  | done => exact .done _
  | @blank start _ character after found skipped rest ih =>
      have within := rest.extent.1
      have alone : source.drop start = [character] ++ after := found
      have next := ih (by omega) upper
      rw [Nat.sub_add_comm lower] at next
      exact .blank (drop_slice alone lower (by simp; omega)) skipped next
  | @comment start _ text after found inside ends rest ih =>
      have within := rest.extent.1
      have next := ih (by omega) upper
      rw [Nat.add_assoc, Nat.sub_add_comm lower, ← Nat.add_assoc] at next
      have whole : source.drop start = (';' :: text) ++ after := found
      refine .comment (drop_slice whole lower (by simp; omega)) inside ?_ next
      intro character first
      exact ends character (mem_head?_of_take first)

/-- Forms that are laid out between two offsets are laid out in every slice
that holds them. -/
theorem Laid.slice {Note : Type}
    {marked : Tree Note → (start stop : Nat) → Prop} {start stop : Nat}
    {items : List (Tree Note)} (laid : Laid source marked start items stop)
    (lower : left ≤ start) (upper : stop ≤ right) :
    Laid (slice source left right) Anywhere (start - left) items
      (stop - left) := by
  induction laid with
  | nil => exact .nil _
  | atom skips stands _ rest ih =>
      have before := skips.extent.1
      have token := stands.extent.1
      have after := rest.extent.1
      exact .atom (skips.slice lower (by omega))
        (stands.slice (by omega) (by omega)) trivial (ih (by omega) upper)
  | group skips opens contents further closes paired _ rest innerIh ih =>
      have before := skips.extent.1
      have opening := opens.extent.1
      have inner := contents.extent.1
      have gap := further.extent.1
      have closing := closes.extent.1
      have after := rest.extent.1
      exact .group (skips.slice lower (by omega))
        (opens.slice (by omega) (by omega)) (innerIh (by omega) (by omega))
        (further.slice (by omega) (by omega))
        (closes.slice (by omega) (by omega)) paired trivial
        (ih (by omega) upper)
  | tagged skips marker contents _ rest innerIh ih =>
      have before := skips.extent.1
      have tag := marker.extent.1
      have inner := contents.extent.1
      have after := rest.extent.1
      exact .tagged (skips.slice lower (by omega))
        (marker.slice (by omega) (by omega)) (innerIh (by omega) (by omega))
        trivial (ih (by omega) upper)

end
/-! ## Nodes -/

/-- Offsets that increase from one offset on and stay below another. -/
def AscendBetween (start : Nat) (offsets : List Nat) (stop : Nat) : Prop :=
  offsets.Pairwise (· < ·) ∧
    ∀ offset ∈ offsets, start ≤ offset ∧ offset < stop

theorem AscendBetween.cons {start first inside stop : Nat}
    {offsets : List Nat} (ascend : AscendBetween inside offsets stop)
    (lower : start ≤ first) (next : first < inside) (upper : inside ≤ stop) :
    AscendBetween start (first :: offsets) stop := by
  refine ⟨List.pairwise_cons.mpr ⟨fun offset member =>
    next.trans_le (ascend.2 offset member).1, ascend.1⟩, ?_⟩
  intro offset member
  rcases List.mem_cons.mp member with rfl | member
  · exact ⟨lower, next.trans_le upper⟩
  · have between := ascend.2 offset member
    omega

theorem AscendBetween.append {start middle later stop : Nat}
    {left right : List Nat} (first : AscendBetween start left middle)
    (second : AscendBetween later right stop) (gap : middle ≤ later)
    (lower : start ≤ middle) (upper : later ≤ stop) :
    AscendBetween start (left ++ right) stop := by
  refine ⟨List.pairwise_append.mpr ⟨first.1, second.1, ?_⟩, ?_⟩
  · intro left member right further
    have before := first.2 left member
    have behind := second.2 right further
    omega
  · intro offset member
    rcases List.mem_append.mp member with member | member
    · have between := first.2 offset member
      omega
    · have between := second.2 offset member
      omega

namespace Tree

variable {Note : Type}

mutual

/-- All nodes of a tree, each of them ahead of those inside it. -/
def nodes : Tree Note → List (Tree Note)
  | .atom note value => [.atom note value]
  | .group note bracket items =>
      .group note bracket items :: nodesList items
  | .tagged note tag value => .tagged note tag value :: nodes value

def nodesList : List (Tree Note) → List (Tree Note)
  | [] => []
  | tree :: trees => nodes tree ++ nodesList trees

end

end Tree

section

variable {Note : Type} {source : List Char}
  {marked : Tree Note → (start stop : Nat) → Prop}

theorem Laid.exists_marked {start stop : Nat} {items : List (Tree Note)}
    (laid : Laid source marked start items stop) {tree : Tree Note}
    (member : tree ∈ Tree.nodesList items) :
    ∃ first last, marked tree first last := by
  induction laid with
  | nil => cases member
  | atom _ _ mark _ ih =>
      rcases List.mem_cons.mp member with rfl | member
      · exact ⟨_, _, mark⟩
      · exact ih member
  | group _ _ _ _ _ _ mark _ innerIh ih =>
      rcases List.mem_cons.mp member with rfl | member
      · exact ⟨_, _, mark⟩
      · rcases List.mem_append.mp member with member | member
        · exact innerIh member
        · exact ih member
  | tagged _ _ _ mark _ innerIh ih =>
      rcases List.mem_cons.mp member with rfl | member
      · exact ⟨_, _, mark⟩
      · rcases List.mem_append.mp member with member | member
        · exact innerIh (List.mem_append_left _ member)
        · exact ih member

/-- The nodes of forms start one behind the other. -/
theorem Laid.starts_ascend {offset : Tree Note → Option Nat}
    (marks : ∀ tree start stop, marked tree start stop →
      offset tree = some start)
    {start stop : Nat} {items : List (Tree Note)}
    (laid : Laid source marked start items stop) :
    ∃ starts : List Nat,
      (Tree.nodesList items).map offset = starts.map some ∧
        AscendBetween start starts stop := by
  induction laid with
  | nil => exact ⟨[], rfl, .nil, by simp⟩
  | @atom _ _ _ _ first _ _ skips stands mark rest ih =>
      obtain ⟨starts, same, ascend⟩ := ih
      refine ⟨first :: starts, ?_, ascend.cons skips.extent.1
        stands.extent.1 rest.extent.1⟩
      rw [List.map_cons, ← same, ← marks _ _ _ mark]
      rfl
  | @group _ _ _ _ _ first _ _ _ _ _ skips opens contents further closes _
      mark rest innerIh ih =>
      obtain ⟨innerStarts, innerSame, innerAscend⟩ := innerIh
      obtain ⟨starts, same, ascend⟩ := ih
      have inner := contents.extent.1
      have gap := further.extent.1
      have closing := closes.extent.1
      have after := rest.extent.1
      refine ⟨first :: (innerStarts ++ starts), ?_,
        (innerAscend.append ascend (by omega) inner after).cons
          skips.extent.1 opens.extent.1 (by omega)⟩
      rw [List.map_cons, List.map_append, ← innerSame, ← same,
        ← marks _ _ _ mark, ← List.map_append]
      rfl
  | @tagged _ _ value _ _ first _ _ _ skips marker contents mark rest innerIh
      ih =>
      obtain ⟨innerStarts, innerSame, innerAscend⟩ := innerIh
      obtain ⟨starts, same, ascend⟩ := ih
      have inner := contents.extent.1
      have after := rest.extent.1
      have alone : Tree.nodesList [value] = value.nodes := List.append_nil _
      rw [alone] at innerSame
      refine ⟨first :: (innerStarts ++ starts), ?_,
        (innerAscend.append ascend (Nat.le_refl _) inner after).cons
          skips.extent.1 marker.extent.1 (by omega)⟩
      rw [List.map_cons, List.map_append, ← innerSame, ← same,
        ← marks _ _ _ mark, ← List.map_append]
      rfl

/-- A node by itself reaches from its first token to its last one. -/
structure Standing (source : List Char) (tree : Tree Note)
    (start stop : Nat) : Prop where
  laid : Laid source Anywhere start [tree] stop
  starts : ∃ token inside, Stands source token start inside
  ends : ∃ token before, Stands source token before stop

/-- Forms that are laid out end with a token. -/
theorem Laid.ends {start stop : Nat} {items : List (Tree Note)}
    (laid : Laid source marked start items stop) (some : items ≠ []) :
    ∃ token before, Stands source token before stop := by
  induction laid with
  | nil => exact absurd rfl some
  | @atom _ _ items _ _ _ _ _ stands _ rest ih =>
      cases rest with
      | nil => exact ⟨_, _, stands⟩
      | _ => exact ih (List.cons_ne_nil _ _)
  | group _ _ _ _ closes _ _ rest _ ih =>
      cases rest with
      | nil => exact ⟨_, _, closes⟩
      | _ => exact ih (List.cons_ne_nil _ _)
  | tagged _ _ _ _ rest innerIh ih =>
      cases rest with
      | nil => exact innerIh (List.cons_ne_nil _ _)
      | _ => exact ih (List.cons_ne_nil _ _)

theorem Laid.start_lt {start stop : Nat} {items : List (Tree Note)}
    (laid : Laid source marked start items stop) (some : items ≠ []) :
    start < stop := by
  cases laid with
  | nil => exact absurd rfl some
  | atom skips stands _ rest =>
      have before := skips.extent.1
      have token := stands.extent.1
      exact (before.trans_lt token).trans_le rest.extent.1
  | group skips opens contents further closes _ _ rest =>
      have before := skips.extent.1
      have opening := opens.extent.1
      have inner := contents.extent.1
      have gap := further.extent.1
      have closing := closes.extent.1
      have after := rest.extent.1
      omega
  | tagged skips marker contents _ rest =>
      have before := skips.extent.1
      have tag := marker.extent.1
      have inner := contents.extent.1
      have after := rest.extent.1
      omega

/-- Every node of what is laid out stands by itself. -/
theorem Laid.standing {start stop : Nat} {items : List (Tree Note)}
    (laid : Laid source marked start items stop) :
    Laid source (fun tree first last => marked tree first last ∧
      Standing source tree first last) start items stop := by
  induction laid with
  | nil => exact .nil _
  | atom skips stands mark _ ih =>
      exact .atom skips stands ⟨mark, .atom (.done _) stands trivial (.nil _),
        ⟨_, _, stands⟩, ⟨_, _, stands⟩⟩ ih
  | group skips opens contents further closes paired mark _ innerIh ih =>
      have within := contents.imp fun _ _ _ _ => trivial
      exact .group skips opens innerIh further closes paired ⟨mark,
        .group (.done _) opens within further closes paired trivial (.nil _),
        ⟨_, _, opens⟩, ⟨_, _, closes⟩⟩ ih
  | tagged skips marker contents mark _ innerIh ih =>
      have within := contents.imp fun _ _ _ _ => trivial
      exact .tagged skips marker innerIh ⟨mark,
        .tagged (.done _) marker within trivial (.nil _), ⟨_, _, marker⟩,
        contents.ends (List.cons_ne_nil _ _)⟩ ih

end

theorem Stands.exists_first {source : List Char} {token : Token}
    {start stop : Nat} (stands : Stands source token start stop) :
    ∃ first, source[start]? = some first ∧ Solid first := by
  obtain ⟨text, after, found, -, written⟩ := stands
  obtain ⟨first, head, solid⟩ := written.head_solid
  refine ⟨first, ?_, solid⟩
  rw [← List.head?_drop, found, List.head?_append, head]
  rfl

theorem Stands.exists_last {source : List Char} {token : Token}
    {start stop : Nat} (stands : Stands source token start stop) :
    ∃ last, source[stop - 1]? = some last ∧ Solid last := by
  obtain ⟨text, after, found, rfl, written⟩ := stands
  obtain ⟨last, tail, solid⟩ := written.getLast_solid
  refine ⟨last, ?_, solid⟩
  have positive := List.length_pos_of_ne_nil written.ne_nil
  rw [Nat.add_sub_assoc positive, ← List.getElem?_drop, found,
    List.getElem?_append_left (by omega), ← List.getLast?_eq_getElem?]
  exact tail

/-! ## Where forms are found -/

/-- The offset to which the start of a form's span leads. -/
def Form.startOffset? (source : String) (form : Form) : Option Nat :=
  form.span?.map fun span => charOffset source span.start

/-- The range to which a form's span leads. -/
def Form.charRange? (source : String) (form : Form) : Option (Nat × Nat) :=
  form.span?.map (charRange source)

theorem Noted.span? {source : String} (fits : FitsCoordinates source)
    {form : Form} {start stop : Nat}
    (noted : Noted source.toList form start stop)
    (standing : Standing source.toList form start stop) :
    form.span? = some ⟨place source.toList start,
      place source.toList (recordedStop source.toList stop - 1)⟩ := by
  obtain ⟨token, before, ends⟩ := standing.ends
  obtain ⟨last, found, solid⟩ := ends.exists_last
  have notLineEnd : last ≠ '\n' := by
    rintro rfl
    exact absurd solid.1 (by decide)
  have positive : 0 < stop := (Nat.zero_le _).trans_lt ends.extent.1
  rw [Form.span?, noted, endPlace_eq positive found notLineEnd]
  exact Metadata.span?_ofSpan (fits _).1 (fits _).2 (fits _).1 (fits _).2

theorem Noted.startOffset? {source : String} (fits : FitsCoordinates source)
    {form : Form} {start stop : Nat}
    (noted : Noted source.toList form start stop)
    (standing : Standing source.toList form start stop) :
    Form.startOffset? source form = some start := by
  obtain ⟨token, inside, starts⟩ := standing.starts
  have within := starts.extent
  rw [Form.startOffset?, noted.span? fits standing, Option.map_some,
    charOffset_place (by omega)]

/-- Positions lead to what they are positions of.  The forms that are read are
laid out in the text, and the start of each node's span leads to the first
character of the node; the nodes start one behind the other.  The position of
a fault leads to where it shows. -/
theorem positions_locate (source : String) (fits : FitsCoordinates source) :
    match readForms source with
    | .ok forms =>
        (∃ stop, Laid source.toList (fun form start _ =>
            Form.startOffset? source form = some start) 0 forms stop ∧
          Skips source.toList stop source.toList.length) ∧
        ∃ starts : List Nat,
          (Tree.nodesList forms).map (Form.startOffset? source) =
            starts.map some ∧ starts.Pairwise (· < ·)
    | .error error =>
        ShowsAt source.toList error.fault
          (charOffset source error.position) := by
  have explains := explains_readForms source
  split
  · next forms read =>
      rw [read] at explains
      obtain ⟨stop, laid, skips⟩ := explains
      have located := laid.standing.imp fun form start stop mark =>
        mark.1.startOffset? fits mark.2
      obtain ⟨starts, same, ascending, -⟩ :=
        located.starts_ascend fun _ _ _ mark => mark
      exact ⟨⟨stop, located, skips⟩, starts, same, ascending⟩
  · next error read =>
      rw [read] at explains
      obtain ⟨offset, within, position, shows⟩ := explains
      rwa [position, charOffset_place within]

/-- A commented vector whose texts are outside ASCII. -/
def accentedText : String := "; ä\r\n[é \"日\n\" #ö x]"

theorem positions_locate_accentedText :
    FitsCoordinates accentedText ∧
    ∃ forms, readForms accentedText = .ok forms ∧
    (∃ stop, Laid accentedText.toList (fun form start _ =>
        Form.startOffset? accentedText form = some start) 0 forms stop ∧
      Skips accentedText.toList stop accentedText.toList.length) ∧
    ∃ starts : List Nat,
      (Tree.nodesList forms).map (Form.startOffset? accentedText) =
        starts.map some ∧ starts.Pairwise (· < ·) := by
  have fits : FitsCoordinates accentedText :=
    fitsCoordinates_of_length (by decide)
  have accepted : (readForms accentedText).toOption.isSome = true := by
    decide +kernel
  have located := positions_locate accentedText fits
  cases read : readForms accentedText with
  | error => rw [read] at accepted; cases accepted
  | ok forms =>
      rw [read] at located
      exact ⟨fits, forms, rfl, located⟩

example :
    ((readForms accentedText).toOption.map fun forms =>
      (Tree.nodesList forms).map (Form.startOffset? accentedText)) =
      some [some 5, some 6, some 8, some 13, some 16] := by
  decide +kernel

/-! ## What spans cover -/

/-- A span covers a form between two offsets, its first character and the one
behind its last.  Behind a character outside ASCII it runs on. -/
structure SpanCovers (source : String) (form : Form) (start stop : Nat) :
    Prop where
  span : form.span? = some ⟨place source.toList start,
    place source.toList (recordedStop source.toList stop - 1)⟩
  range : form.charRange? source =
    some (start, recordedStop source.toList stop)
  first : ∃ first, source.toList[start]? = some first ∧ Solid first
  last : ∃ last, source.toList[stop - 1]? = some last ∧ Solid last
  reread : ∃ other : Form,
    readForms (String.ofList (slice source.toList start stop)) =
      .ok [other] ∧ other.datum = form.datum

/-- What stands by itself is read from its slice of the text. -/
theorem Standing.reread {Note : Type} {source : List Char}
    {tree : Tree Note} {start stop : Nat}
    (standing : Standing source tree start stop) :
    ∃ other : Form,
      readForms (String.ofList (slice source start stop)) = .ok [other] ∧
        other.datum = tree.datum := by
  obtain ⟨token, before, ends⟩ := standing.ends
  have within := ends.extent.2
  have laid := standing.laid.slice (Nat.le_refl start) (Nat.le_refl stop)
  rw [Nat.sub_self, ← length_slice within] at laid
  obtain ⟨forms, read, data⟩ := readForms_of_laid
    (show Laid (String.ofList (slice source start stop)).toList _ 0 _ _ by
      rwa [String.toList_ofList])
    (show Skips _ _ _ by
      rw [String.toList_ofList]
      exact .done _)
  obtain ⟨other, rfl, datum⟩ := List.map_eq_singleton_iff.mp data
  exact ⟨other, read, datum⟩

theorem Noted.covers {source : String} (fits : FitsCoordinates source)
    {form : Form} {start stop : Nat}
    (noted : Noted source.toList form start stop)
    (standing : Standing source.toList form start stop) :
    SpanCovers source form start stop := by
  have span := noted.span? fits standing
  obtain ⟨opening, inside, starts⟩ := standing.starts
  obtain ⟨closing, before, ends⟩ := standing.ends
  obtain ⟨last, found, solid⟩ := ends.exists_last
  have nonempty := standing.laid.start_lt (List.cons_ne_nil _ _)
  refine ⟨span, ?_, starts.exists_first, ⟨last, found, solid⟩,
    standing.reread⟩
  rw [Form.charRange?, span, Option.map_some,
    charRange_places nonempty found]

/-- The span of every node leads to the node's text, up to its last character,
or to the one behind it where that is outside ASCII.  The node is read from
its text alone. -/
theorem spans_cover (source : String) (fits : FitsCoordinates source)
    {forms : List Form} (read : readForms source = .ok forms) :
    ∀ form ∈ Tree.nodesList forms, ∃ start stop,
      SpanCovers source form start stop := by
  intro form member
  have explains := explains_readForms source
  rw [read] at explains
  obtain ⟨_, laid, -⟩ := explains
  obtain ⟨start, stop, noted, standing⟩ := laid.standing.exists_marked member
  exact ⟨start, stop, noted.covers fits standing⟩

def accentedSymbol : Form :=
  .atom (.ofSpan ⟨⟨1, 2⟩, ⟨1, 3⟩⟩) (.symbol "é")

def accentedCall : Form :=
  .group (.ofSpan ⟨⟨1, 1⟩, ⟨1, 3⟩⟩) .list [accentedSymbol]

theorem readForms_accentedCall : readForms "(é)" = .ok [accentedCall] := by
  cbv

theorem spans_cover_accentedCall :
    FitsCoordinates "(é)" ∧ readForms "(é)" = .ok [accentedCall] ∧
    ∀ form ∈ Tree.nodesList [accentedCall], ∃ start stop,
      SpanCovers "(é)" form start stop := by
  have fits : FitsCoordinates "(é)" := fitsCoordinates_of_length (by decide)
  exact ⟨fits, readForms_accentedCall,
    spans_cover "(é)" fits readForms_accentedCall⟩

/-- The span of a symbol that ends outside ASCII takes in the bracket behind
it, and so its text is not read as the symbol. -/
theorem accentedSymbol_span_runs_on :
    FitsCoordinates "(é)" ∧ readForms "(é)" = .ok [accentedCall] ∧
    accentedSymbol ∈ Tree.nodesList [accentedCall] ∧
    accentedSymbol.charRange? "(é)" = some (1, 3) ∧
    readForms (String.ofList (slice "(é)".toList 1 3)) =
      .error ⟨.unmatchedClose ')', ⟨1, 2⟩⟩ := by
  refine ⟨fitsCoordinates_of_length (by decide), readForms_accentedCall,
    ?_, by decide +kernel, by cbv⟩
  exact List.mem_cons_of_mem _ (List.mem_cons_self)

end FormCompiler
