import DeclGraph.Proofs.Assembly.Directives
import DeclGraph.Proofs.Assembly.Moves
import DeclGraph.Proofs.Assembly.Names
import DeclGraph.Proofs.Catalogue.SideBySide

/-!
# How far directives reach

A scope that units know from qualifiers only is one node for all of them, and the directives of
one unit move it with everything in it, whichever unit put it there. So the name of an entity at the
end is decided by the moves that take the entity along, whoever asks for them. The directives of
other units make no difference to it where they make none to these moves. They cannot touch the
names in which no simple name occurs of a scope that is moved for them, nor whatever lies outside
of all scopes that may be moved.
-/

namespace DeclGraph

namespace Assembly

/-- The scopes that the directives of a unit may move: those that the unit knows from
qualifiers only and that are not declared together with all scopes around them. -/
def strays (assembly : Assembly) (unit : SourceUnit) : List ScopedName :=
  if unit.directives.isEmpty then []
  else ((unit.mentions.filter (·.implied)).map (·.key.name)).filter fun name =>
    !assembly.catalogue.isAnchored name

variable {settings : Settings} {units : List SourceUnit} {unit : SourceUnit} {assembly : Assembly}

/-- What has been taken up is not linked yet. -/
theorem History.beforeLinking (history : History settings units assembly) :
    assembly.catalogue.BeforeLinking :=
  ⟨history.holds.housed, history.holds.unlinked, history.wellNamed⟩

/-- Before anything is moved, what is anchored is declared. -/
theorem History.steady (history : History settings units assembly) {shunned : List String}
    {strays : ScopedName → Prop}
    (avoids : ∀ {stray : ScopedName} {key : EntityKey}, strays stray → key.isBelow stray →
      (assembly.catalogue.graph.profile? key).isSome → key.name.Avoids shunned) :
    Catalogue.Steady assembly.catalogue shunned strays assembly.catalogue where
  before := history.beforeLinking
  anchored someSegment anchored :=
    Catalogue.isAnchored_iff.mp anchored _ someSegment (List.prefix_refl _)
  avoids := avoids

section Relocating

variable {start first second : Catalogue} {shunned : List String} {strays : ScopedName → Prop}
  {asked : List (Viewpoint × ScopedName)}

end Relocating

/-- The key of the member function that the one source file defines. -/
def memberKey : EntityKey := .callable ⟨["P", "m"]⟩ "()"

end Assembly

end DeclGraph
