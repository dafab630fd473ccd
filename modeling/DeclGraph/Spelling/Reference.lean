import DeclGraph.Distinct
import DeclGraph.Spelling.Canonical
import DeclGraph.Spelling.Template

/-!
# The types a spelling names

A spelling names a base type and, through its template arguments, further
types. Builtin types, literals and function types name nothing.
-/

namespace DeclGraph.Spelling

/-- The words that builtin arithmetic and placeholder types are made of. -/
def builtinWords : List String :=
  ["void", "bool", "char", "wchar_t", "char8_t", "char16_t", "char32_t", "short", "int",
   "long", "float", "double", "signed", "unsigned", "auto", "size_t", "ptrdiff_t",
   "nullptr_t", "int8_t", "int16_t", "int32_t", "int64_t", "uint8_t", "uint16_t",
   "uint32_t", "uint64_t"]

/-- Whether a token is part of a type's name: a word other than a qualifier, or
half of a scope separator. -/
def Token.isOfName : Token → Bool
  | .word text => !qualifierWords.contains text
  | .mark symbol => symbol == ':'

/-- Whether a token is a word of a builtin type. -/
def Token.isBuiltin : Token → Bool
  | .word text => builtinWords.contains text
  | .mark _ => false

/-- Whether the spelling names builtin words only, and at least one of them. -/
def isBuiltin (spelling : String) : Bool :=
  let words := (tokens spelling).filter Token.isOfName
  !words.isEmpty && words.all Token.isBuiltin

/-- Drops every scope separator in front. -/
def dropLeadingSeparators : List Char → List Char
  | ':' :: ':' :: rest => dropLeadingSeparators rest
  | text => text

/-- The named type a spelling refers to, without qualifiers, pointers,
references, arrays and template arguments. Builtin types, literals and function
types name none. -/
def baseName? (spelling : String) : Option String :=
  let plain := withoutArguments (canonical spelling)
  if plain.toList.contains '(' then none
  else
    let words := ((tokens plain).takeWhile (· ≠ .mark '[')).filter Token.isOfName
    let name := dropLeadingSeparators (render words)
    if name.isEmpty || (name.head?.map Char.isDigit).getD false
        || isBuiltin (String.ofList name) then none
    else some (String.ofList name)

/-- Adds the types a spelling names to those found before, the base type first
and then those of its template arguments, down to `levels` argument lists. -/
def gatherNames : Nat → List String → String → List String
  | 0, found, _ => found
  | levels + 1, found, spelling =>
    let withBase := match baseName? spelling with
      | some name => addNew found name
      | none => found
    (arguments spelling).foldl (gatherNames levels) withBase

/-- How many argument lists deep names are looked for. -/
def referenceLevels : Nat := 9

/-- Every type a spelling names, each once, in the order of first mention. -/
def references (spelling : String) : List String :=
  gatherNames referenceLevels [] (canonical spelling)

end DeclGraph.Spelling
