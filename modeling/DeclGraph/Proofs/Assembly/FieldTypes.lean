import DeclGraph.Proofs.Assembly.Finishing
import DeclGraph.Proofs.Linking.FieldTypes

/-!
# What records hold in the finished graph

In a finished graph a record holds exactly the types that its data members use, and every such
edge lists the names of these data members in order. The passes before and after that over the
data members add no use of a type as that of a data member.
-/

namespace DeclGraph

/-- Records hold the types of their data members, and the edges name these data members. -/
structure Graph.LiftsFieldTypes (graph : Graph) : Prop where
  related_iff : ∀ {record target : Nat}, graph.Related record .hasField target ↔
    ∃ field ∈ graph.nodes, field.kind = .field ∧ graph.Related record .contains field.id ∧
      graph.UsedAs field.id "field" target
  via_fields : ∀ edge ∈ graph.edges, edge.relation = .hasField →
    ∃ names, edge.attributes.texts? AttributeName.viaFields = some names ∧
      names.Pairwise (· < ·) ∧ ∀ name, name ∈ names ↔
        ∃ field ∈ graph.nodes, field.kind = .field ∧
          graph.Related edge.source .contains field.id ∧
          graph.UsedAs field.id "field" edge.target ∧ field.key.name.simple = name

namespace Graph

variable {graph : Graph}

/-- The fields that hold a type are listed among the nodes that a record contains. -/
theorem Sound.exists_holdsType_iff (sound : graph.Sound) {record target : Nat}
    {fits : Node → Prop} :
    (∃ field, graph.HoldsType record field target ∧ fits field) ↔
      ∃ field ∈ graph.nodes, field.kind = .field ∧ graph.Related record .contains field.id ∧
        graph.UsedAs field.id "field" target ∧ fits field := by
  refine exists_congr fun field => ?_
  constructor
  · rintro ⟨⟨there, isField, member, used⟩, fit⟩
    exact ⟨sound.mem_nodes.mpr there, isField, member, used, fit⟩
  · rintro ⟨there, isField, member, used, fit⟩
    exact ⟨⟨sound.mem_nodes.mp there, isField, member, used⟩, fit⟩

/-- When the edges tell which data members hold which types, they lift the types. -/
theorem FieldsTold.lifts (told : graph.FieldsTold) (sound : graph.Sound) :
    graph.LiftsFieldTypes where
  related_iff := by
    intro record target
    have known : graph.Related record .hasField target ↔
        ∃ attributes, graph.attributesOf? ⟨record, target, .hasField⟩ = some attributes := by
      rw [← sound.edgeBetween?_isSome, Option.isSome_iff_exists]
      simp [attributesOf?]
    rw [known]
    constructor
    · rintro ⟨attributes, held⟩
      obtain ⟨names, listed, someName, _⟩ := told.told held
      obtain ⟨name, member⟩ := List.exists_mem_of_ne_nil names someName
      have via : name ∈ graph.viaFields record target := by
        simpa [viaFields, held, listed] using member
      obtain ⟨field, there, isField, inRecord, used, _⟩ :=
        sound.exists_holdsType_iff.mp (told.mem_iff.mp via)
      exact ⟨field, there, isField, inRecord, used⟩
    · rintro ⟨field, there, isField, inRecord, used⟩
      have via : field.key.name.simple ∈ graph.viaFields record target :=
        told.mem_iff.mpr ⟨field, ⟨sound.mem_nodes.mp there, isField, inRecord, used⟩, rfl⟩
      cases held : graph.attributesOf? ⟨record, target, .hasField⟩ with
      | none => simp [viaFields, held] at via
      | some attributes => exact ⟨attributes, rfl⟩
  via_fields := by
    intro edge listed holds
    have held : graph.attributesOf? ⟨edge.source, edge.target, .hasField⟩ =
        some edge.attributes :=
      sound.attributesOf?_eq_some.mpr ⟨edge, listed, by rw [← holds]; rfl, rfl⟩
    obtain ⟨names, texts, _, increasing⟩ := told.told held
    refine ⟨names, texts, increasing, fun name => ?_⟩
    have via : graph.viaFields edge.source edge.target = names := by
      simp [viaFields, held, texts]
    rw [← via, told.mem_iff, sound.exists_holdsType_iff]

end Graph

namespace Linking.Stages

variable {references : List SeenReference} {start last : Linking}
  (stages : Stages references start last) (housed : start.catalogue.Housed [])

include stages housed

/-- Once everything is linked, records hold the types of their data members. -/
theorem liftsFieldTypes (unlinked : start.catalogue.Unlinked)
    (keeps : start.catalogue.MovesWithinFamilies) (owned : AllOwned references) :
    last.catalogue.graph.LiftsFieldTypes := by
  have toBased : start.Grows (aliasBonds ++ [.inherits]) stages.based :=
    ((stages.toAliased housed).mono (by decide)).trans
      ((stages.aliasedToBased housed).mono (by decide))
  have housedBased := stages.housed_based housed
  have toldStart : start.catalogue.graph.FieldsTold := by
    refine housed.sound.fieldsTold_of_none (fun source target related => ?_) ?_
    · cases unlinked _ _ _ related
    · rintro source target ⟨edge, found, ends, _⟩
      cases unlinked _ _ _ (housed.sound.related_iff.mpr ⟨edge, found, ends⟩)
  have toldBased := toBased.fieldsTold housed (by decide) (by decide) toldStart
  have toldFielded := ((succeeds_linkFields_told housedBased (toBased.movesWithinFamilies keeps)
    owned toldBased).of_run stages.fields).2
  have fromFielded : stages.fielded.Grows (signatureBonds ++ .overloads :: laterBonds) last :=
    ((stages.fieldedToSigned housed).mono (by decide)).trans
      (((stages.signedToOverloaded housed).mono (by decide)).trans
        ((stages.overloadedToLast housed).mono (by decide)))
  have housedFielded := stages.housed_fielded housed
  exact (fromFielded.fieldsTold housedFielded (by decide) (by decide) toldFielded).lifts
    (fromFielded.housed housedFielded).sound

end Linking.Stages

namespace Assembly

/-- Whatever units were offered, in the finished graph records hold the types of their data
members, and the edges name these data members. -/
theorem offered_liftsFieldTypes (settings : Settings) (units : List SourceUnit) :
    ∃ finished, ((empty settings).offered units).finish = .ok finished ∧
      finished.graph.LiftsFieldTypes := by
  obtain ⟨prepared, linking, finishing⟩ := exists_finishing settings units
  obtain ⟨stages⟩ := finishing.stages
  exact ⟨_, finishing.finishes.finishes, stages.liftsFieldTypes finishing.housed
    finishing.unlinked finishing.keeps finishing.owned⟩

end Assembly

end DeclGraph
