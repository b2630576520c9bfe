/-!
# Beginnings and ends of texts
-/

namespace FormCompiler

/-- What is left of a list after an initial part. -/
def afterInitial? {Element : Type} [BEq Element] :
    (initial whole : List Element) → Option (List Element)
  | [], whole => some whole
  | _ :: _, [] => none
  | expected :: initial, found :: whole =>
      if expected == found then afterInitial? initial whole else none

/-- What is left of a text after its beginning. -/
def dropBeginning? (beginning text : String) : Option String :=
  (afterInitial? beginning.toList text.toList).map String.ofList

/-- What is left of a text ahead of its end. -/
def dropEnding? (ending text : String) : Option String :=
  (afterInitial? ending.toList.reverse text.toList.reverse).map fun rest =>
    String.ofList rest.reverse

/-- Whether one list of characters occurs in another. -/
def occursIn (part : List Char) : List Char → Bool
  | [] => part.isEmpty
  | character :: characters =>
      part.isPrefixOf (character :: characters) || occursIn part characters

/-- Whether a text has a part. -/
def hasPart (text part : String) : Bool := occursIn part.toList text.toList

end FormCompiler
