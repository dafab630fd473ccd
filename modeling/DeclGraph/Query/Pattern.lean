import DeclGraph.Text.Scanning

/-!
# Name and path patterns

A path pattern is matched segment by segment. In a segment a star stands for
any characters, and a segment of two stars stands for any segments. A name
pattern is a text that may be anchored at either end of the name.
-/

namespace DeclGraph.Query

/-- What follows the first occurrence of a text, if it occurs. -/
def afterFirst? (needle : List Char) : List Char → Option (List Char)
  | [] => if needle.isEmpty then some [] else none
  | c :: rest =>
    if needle.isPrefixOf (c :: rest) then some ((c :: rest).drop needle.length)
    else afterFirst? needle rest

/-- Whether the pieces occur one after the other in a text, the last of them at
its end. Each piece but the last is taken where it first occurs. -/
def piecesMatch : List (List Char) → List Char → Bool
  | [], _ => true
  | [piece], text => piece.isSuffixOf text
  | piece :: pieces, text =>
    match afterFirst? piece text with
    | some rest => piecesMatch pieces rest
    | none => false

/-- Whether a segment matches a segment pattern. -/
def segmentMatches (pattern segment : List Char) : Bool :=
  match Text.cutAt '*' pattern with
  | [] => true
  | [literal] => literal == segment
  | first :: pieces =>
    first.isPrefixOf segment && piecesMatch pieces (segment.drop first.length)

/-- Whether a list or some end of it is accepted. -/
def someSuffix {α : Type} (accepts : List α → Bool) : List α → Bool
  | [] => accepts []
  | head :: rest => accepts (head :: rest) || someSuffix accepts rest

/-- Whether the segments of a path match the segments of a pattern. -/
def segmentsMatch : List (List Char) → List (List Char) → Bool
  | [], path => path.isEmpty
  | pattern :: patterns, path =>
    if pattern = ['*', '*'] then someSuffix (segmentsMatch patterns) path
    else
      match path with
      | segment :: segments =>
        segmentMatches pattern segment && segmentsMatch patterns segments
      | [] => false

/-- Whether a path matches a path pattern. -/
def pathMatches (pattern path : String) : Bool :=
  segmentsMatch (Text.cutAt '/' pattern.toList) (Text.cutAt '/' path.toList)

/-- Drops every `mark` in front. -/
def dropFront (mark : Char) (text : List Char) : List Char :=
  text.dropWhile (· == mark)

/-- Drops every `mark` at the end. -/
def dropBack (mark : Char) (text : List Char) : List Char :=
  (text.reverse.dropWhile (· == mark)).reverse

/-- Whether a name matches a name pattern: `^` anchors it at the start, `$` at
the end, and without anchors the text may stand anywhere. -/
def anchoredMatches (pattern name : String) : Bool :=
  let text := dropBack '$' (dropFront '^' pattern.toList)
  match pattern.toList.head? == some '^', pattern.toList.getLast? == some '$' with
  | true, true => name.toList == text
  | true, false => text.isPrefixOf name.toList
  | false, true => text.isSuffixOf name.toList
  | false, false => Text.occursIn text name.toList

end DeclGraph.Query
