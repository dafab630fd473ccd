import DeclGraph.Text.Alphanumeric
import DeclGraph.Text.Scanning

/-!
# Tokens of a type spelling

A type spelling is read as words and single marks. Blanks only separate words,
and the keywords of elaborated types say nothing about the type, so neither
becomes a token. `render` writes tokens back with as few blanks as will keep
them apart.
-/

namespace DeclGraph.Spelling

/-- A word or a single mark. -/
inductive Token where
  | word (text : String)
  | mark (symbol : Char)
deriving DecidableEq, Repr, Inhabited

/-- Words are made of letters, digits, underscores and tildes. -/
def isWordChar (c : Char) : Bool :=
  Text.isAlphanumeric c || c == '_' || c == '~'

/-- The qualifiers that may stand in front of or behind a type. -/
def qualifierWords : List String := ["const", "volatile"]

/-- The keywords of elaborated types, which say nothing about which type is
meant. -/
def elaboratedWords : List String := ["struct", "class", "enum", "union", "typename"]

namespace Token

/-- Whether the token is a cv-qualifier. -/
def isQualifier : Token → Bool
  | .word text => qualifierWords.contains text
  | .mark _ => false

/-- Whether the token is a keyword of an elaborated type. -/
def isElaborated : Token → Bool
  | .word text => elaboratedWords.contains text
  | .mark _ => false

/-- The characters of the token. -/
def chars : Token → List Char
  | .word text => text.toList
  | .mark symbol => [symbol]

/-- Whether a blank stands between two neighbouring tokens: between words, and
between a pointer or reference mark and its qualifier. -/
def spaced : Token → Token → Bool
  | .word _, .word _ => true
  | .mark symbol, .word text => (symbol == '*' || symbol == '&') && qualifierWords.contains text
  | _, .mark _ => false

end Token

/-- The word collected so far, or nothing. -/
def pendingWord (pending : List Char) : List Token :=
  if pending.isEmpty then [] else [.word (String.ofList pending)]

/-- The words and marks of a text. `pending` holds the characters of the open
word. -/
def scanFrom (pending : List Char) : List Char → List Token
  | [] => pendingWord pending
  | c :: rest =>
    if isWordChar c then scanFrom (pending ++ [c]) rest
    else
      pendingWord pending ++ (if Text.isBlank c then [] else [.mark c]) ++ scanFrom [] rest

/-- The tokens of a spelling, without the keywords of elaborated types. -/
def tokens (spelling : String) : List Token :=
  (scanFrom [] spelling.toList).filter fun token => !token.isElaborated

/-- Writes tokens with a blank only where `Token.spaced` asks for one. -/
def render : List Token → List Char
  | [] => []
  | [token] => token.chars
  | token :: next :: rest =>
    token.chars ++ (if token.spaced next then [' '] else []) ++ render (next :: rest)

end DeclGraph.Spelling
