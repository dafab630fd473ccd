import DeclGraph.FilePath
import DeclGraph.ParseTree.Basic
import DeclGraph.Text.Scanning

/-!
# Source texts

The text behind a parse tree, from which spellings are taken by byte position.
-/

namespace DeclGraph

/-- The text of a source file and what is wanted from it. -/
structure SourceText where
  path : FilePath
  text : String
  /-- Whether function bodies are looked into. -/
  readCalls : Bool
deriving DecidableEq, Repr

namespace SourceText

/-- The text from one byte position up to another. -/
def slice (source : SourceText) (start stop : Nat) : String :=
  String.Pos.Raw.extract source.text ⟨start⟩ ⟨stop⟩

/-- The text of a node. -/
def spelling (source : SourceText) (tree : ParseTree) : String :=
  source.slice tree.info.start tree.info.stop

/-- The text from one byte position up to another, with a blank in place of a
node. A node that does not lie between the positions leaves no gap. -/
def sliceWithout (source : SourceText) (start stop : Nat) (hole : ParseTree) : String :=
  if start ≤ hole.info.start ∧ hole.info.stop ≤ stop then
    source.slice start hole.info.start ++ " " ++ source.slice hole.info.stop stop
  else source.slice start stop

/-- The number of lines. A line break at the end opens no further line. -/
def lineCount (text : String) : Nat :=
  let pieces := Text.cutAt '\n' text.toList
  if pieces.getLast? = some [] then pieces.length - 1 else pieces.length

end SourceText

end DeclGraph
