import DeclGraph.Text.Scanning

/-!
# Template argument lists

Names are looked up without their template arguments, and the arguments
themselves name further types. Both readings count angle brackets only.
-/

namespace DeclGraph.Spelling

/-- The characters outside angle brackets. -/
def outsideArguments (depth : Nat) : List Char → List Char
  | [] => []
  | c :: rest =>
    if c = '<' then outsideArguments (depth + 1) rest
    else if c = '>' then outsideArguments (depth - 1) rest
    else if depth = 0 then c :: outsideArguments depth rest
    else outsideArguments depth rest

/-- The spelling without its template argument lists, trimmed. A spelling that
speaks of an operator keeps its angle brackets, since they may be the
operator's own. -/
def withoutArguments (spelling : String) : String :=
  if Text.occursIn "operator".toList spelling.toList then
    String.ofList (Text.trim spelling.toList)
  else String.ofList (Text.trim (outsideArguments 0 spelling.toList))

/-- A collected argument, trimmed, or nothing when only blanks were collected. -/
def argumentOf (pending : List Char) : List String :=
  if (Text.trim pending).isEmpty then [] else [String.ofList (Text.trim pending)]

/-- The outermost arguments of every argument list in a text. `pending` holds
the characters of the open argument. -/
def argumentsFrom (depth : Nat) (pending : List Char) : List Char → List String
  | [] => []
  | c :: rest =>
    if c = '<' then
      argumentsFrom (depth + 1) (if depth = 0 then pending else pending ++ [c]) rest
    else if c = '>' then
      if depth ≤ 1 then argumentOf pending ++ argumentsFrom 0 [] rest
      else argumentsFrom (depth - 1) (pending ++ [c]) rest
    else if c = ',' ∧ depth = 1 then argumentOf pending ++ argumentsFrom depth [] rest
    else argumentsFrom depth (if depth = 0 then pending else pending ++ [c]) rest

/-- The outermost template arguments of a spelling, in order. -/
def arguments (spelling : String) : List String :=
  argumentsFrom 0 [] spelling.toList

end DeclGraph.Spelling
