import FormCompiler.Form.Token

/-!
# Reading forms

Tokens are folded into forms with a stack of what is still open: a bracket
with the forms read inside it, or a tag that waits for its value.  Each
finished form goes to the innermost open bracket, after the tags that wait
for it have been wrapped around it, or else to the forms of the text.

Every form records the span from its first token to its last one.
-/

namespace FormCompiler

/-- Something that is still open, and where it started. -/
inductive Frame where
  | group (bracket : Bracket) (start : Position) (reversedItems : List Form)
  | tag (name : String) (start : Position)

/-- The open frames, innermost first, and the finished forms, latest
first. -/
structure ReadState where
  frames : List Frame
  reversedForms : List Form

namespace ReadState

def initial : ReadState := ⟨[], []⟩

/-- Delivers a form that ends at `last`. -/
def deliver (form : Form) (last : Position) (reversedForms : List Form) :
    List Frame → ReadState
  | [] => ⟨[], form :: reversedForms⟩
  | .group bracket start items :: frames =>
      ⟨.group bracket start (form :: items) :: frames, reversedForms⟩
  | .tag name start :: frames =>
      deliver (.tagged (.ofSpan ⟨start, last⟩) name form) last
        reversedForms frames

/-- Closes the innermost bracket. -/
def close (character : Char) (span : Span) (state : ReadState) :
    Except ReadError ReadState :=
  match state.frames with
  | .group bracket start reversedItems :: frames =>
      if bracket.closeChar ≠ character then
        .error ⟨.unmatchedClose character, span.start⟩
      else if bracket = .map ∧ reversedItems.length % 2 ≠ 0 then
        .error ⟨.oddMapEntries, start⟩
      else
        .ok (deliver
          (.group (.ofSpan ⟨start, span.last⟩) bracket reversedItems.reverse)
          span.last state.reversedForms frames)
  | _ => .error ⟨.unmatchedClose character, span.start⟩

/-- Takes one token. -/
def step (state : ReadState) (next : SpannedToken) :
    Except ReadError ReadState :=
  match next.token with
  | .opening bracket =>
      .ok { state with
        frames := .group bracket next.span.start [] :: state.frames }
  | .closing character => state.close character next.span
  | .atom value =>
      .ok (deliver (.atom (.ofSpan next.span) value) next.span.last
        state.reversedForms state.frames)
  | .tag name =>
      .ok { state with frames := .tag name next.span.start :: state.frames }

end ReadState

/-- What the end of a text leaves: an open frame wants more. -/
def ReadState.finish (state : ReadState) (ending : Except ReadError Position) :
    Except ReadError (List Form) :=
  match ending with
  | .error error => .error error
  | .ok position =>
      if state.frames.isEmpty then .ok state.reversedForms.reverse
      else .error ⟨.unexpectedEnd, position⟩

/-- Takes every token. -/
def readTokens (state : ReadState) :
    List SpannedToken → Except ReadError ReadState
  | [] => .ok state
  | token :: tokens =>
      match state.step token with
      | .error error => .error error
      | .ok state => readTokens state tokens

/-- Takes tokens until a first form is finished. -/
def readFirst (ending : Except ReadError Position) (state : ReadState) :
    List SpannedToken → Except ReadError Form
  | [] =>
      match ending with
      | .error error => .error error
      | .ok position =>
          if state.frames.isEmpty then .error ⟨.empty, position⟩
          else .error ⟨.unexpectedEnd, position⟩
  | token :: tokens =>
      match state.step token with
      | .error error => .error error
      | .ok state =>
          match state.reversedForms with
          | form :: _ => .ok form
          | [] => readFirst ending state tokens

/-- Reads every form of a text. -/
def readForms (source : String) : Except ReadError (List Form) :=
  let scanned := scan source
  match readTokens .initial scanned.tokens with
  | .error error => .error error
  | .ok state => state.finish scanned.ending

/-- Reads the first form of a text and ignores what follows it. -/
def readForm (source : String) : Except ReadError Form :=
  let scanned := scan source
  readFirst scanned.ending .initial scanned.tokens

end FormCompiler
