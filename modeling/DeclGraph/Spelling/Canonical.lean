import DeclGraph.Spelling.Token
import DeclGraph.Text.Scanning

/-!
# Canonical spellings

Two spellings of one type are compared by their canonical forms. A parameter
has a form of its own, since qualifiers on the value handed over do not change
the type of the function.
-/

namespace DeclGraph.Spelling

/-- The canonical form of a spelling: its tokens, written with the fewest
blanks. -/
def canonical (spelling : String) : String :=
  String.ofList (render (tokens spelling))

/-- Whether a parameter of these tokens is handed over by address: the last
token is a pointer, a reference or an array mark. -/
def isByAddress (list : List Token) : Bool :=
  match list.getLast? with
  | some (.mark symbol) => symbol == '*' || symbol == '&' || symbol == ']'
  | _ => false

/-- Removes the qualifiers that stand outside brackets. -/
def dropOuterQualifiers (depth : Nat) : List Token → List Token
  | [] => []
  | .mark symbol :: rest =>
    .mark symbol :: dropOuterQualifiers (Text.nestingStep depth symbol) rest
  | .word text :: rest =>
    if depth = 0 ∧ qualifierWords.contains text then dropOuterQualifiers depth rest
    else .word text :: dropOuterQualifiers depth rest

/-- The canonical form of a parameter type. A parameter handed over by value
loses its outer qualifiers. -/
def canonicalParameter (spelling : String) : String :=
  let list := tokens spelling
  String.ofList (render (if isByAddress list then list else dropOuterQualifiers 0 list))

end DeclGraph.Spelling
