import DeclGraph.Interchange.Document
import DeclGraph.ParseTree.Basic

/-!
# Documents of parse trees

A tree is exchanged as the list of its nodes in document order. A node is the
list of its kind, its marks, its label, its first byte, the byte behind it, its
row, its column and the number of its children.
-/

namespace DeclGraph

/-- The marks of a node as one number, a bit for each. -/
def NodeInfo.marks (info : NodeInfo) : Nat :=
  info.named.toNat + 2 * info.isError.toNat + 4 * info.isMissing.toNat
    + 8 * info.hasError.toNat

/-- A node and the number of its children as a document. -/
def writeEntry (info : NodeInfo) (children : Nat) : Document :=
  .list [write info.kind, write info.marks, write info.label, write info.start,
    write info.stop, write info.row, write info.column, write children]

/-- Reads what `writeEntry` writes. -/
def readEntry : Document → Option (NodeInfo × Nat)
  | .list [kind, marks, label, start, stop, row, column, children] => do
    let marks : Nat ← read marks
    let info : NodeInfo :=
      { kind := ← read kind
        named := marks.testBit 0
        isError := marks.testBit 1
        isMissing := marks.testBit 2
        hasError := marks.testBit 3
        label := ← read label
        start := ← read start
        stop := ← read stop
        row := ← read row
        column := ← read column }
    return (info, ← read children)
  | _ => none

instance : Interchange ParseTree where
  write tree :=
    .list (tree.preorder.map fun node => writeEntry node.info node.children.length)
  read
    | .list entries => do ParseTree.ofPreorder? (← entries.mapM readEntry)
    | _ => none

end DeclGraph
