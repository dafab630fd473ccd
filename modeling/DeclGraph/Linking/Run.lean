import DeclGraph.Linking.Calls
import DeclGraph.Linking.Overloads
import DeclGraph.Linking.Overrides
import DeclGraph.Linking.Types

/-!
# The order of linking

Aliases, bases, data members and signatures are linked first, then overloads and
overrides, which need the bases, and last the bodies.
-/

namespace DeclGraph.Linking

/-- All steps of the linking, in order. -/
def linkAll (references : List SeenReference) : Step Unit := do
  linkAliases references
  linkBases references
  linkFields references
  linkSignatures references
  linkOverloads
  linkOverrides
  linkCalls references
  linkLocals references

/-- Links the references of merged units in a catalogue. -/
def run (catalogue : Catalogue) (units : List Pending) : Except GraphError Linking := do
  let (_, linking) ← (linkAll (seenReferences units)).run ⟨catalogue, []⟩
  return linking

end DeclGraph.Linking
