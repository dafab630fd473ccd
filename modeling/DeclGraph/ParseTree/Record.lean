import DeclGraph.ParseTree.Callable

/-!
# Records in a parse tree

The head of a class or a struct: its name, its scopes and its bases.
-/

namespace DeclGraph

/-- The access of the members of a record and of its bases where none is
given. -/
def defaultAccess (kind : EntityKind) : Access :=
  if kind = .structRecord then .everyone else .ownRecord

/-- Removes every colon at the end. -/
def dropColons (text : List Char) : List Char :=
  (text.reverse.dropWhile (· == ':')).reverse

/-- The access that a text names, with or without a colon behind it. -/
def accessNamed? (text : String) : Option Access :=
  match String.ofList (Text.trim (dropColons (Text.trim text.toList))) with
  | "public" => some .everyone
  | "protected" => some .derivedRecords
  | "private" => some .ownRecord
  | _ => none

/-- The kind of record that a node declares. -/
def recordKind? (tree : ParseTree) : Option EntityKind :=
  match tree.kind with
  | "class_specifier" => some .classRecord
  | "struct_specifier" => some .structRecord
  | _ => none

/-- What is known of the next base while a list of bases is read. -/
structure BaseProgress where
  access : Option Access
  isVirtual : Bool
  bases : List Base

/-- What to declare as a record: its kind and its name as spelled. -/
structure RecordHead where
  kind : EntityKind
  spelled : String
deriving DecidableEq, Repr

namespace SourceText

variable (source : SourceText)

mutual

/-- Reads one part of a list of bases: an access, a mark or the name of a base.
A base wrapped in a node of its own is read on its own. -/
def readBase (fallback : Access) (progress : BaseProgress) : ParseTree → BaseProgress
  | .node info children =>
    let text := source.spelling (.node info children)
    match info.kind with
    | "access_specifier" => { progress with access := accessNamed? text }
    | "base_class_specifier" =>
      { progress with
        bases := (readBases fallback ⟨none, false, progress.bases⟩ children).bases }
    | "type_identifier" | "qualified_identifier" | "template_type" =>
      let base : Base :=
        ⟨Spelling.canonical text, progress.access.getD fallback, progress.isVirtual⟩
      ⟨none, false, progress.bases ++ [base]⟩
    | _ =>
      if text = "virtual" then { progress with isVirtual := true }
      else
        match accessNamed? text with
        | some access => { progress with access := some access }
        | none => progress

/-- Reads the parts of a list of bases one after the other. -/
def readBases (fallback : Access) (progress : BaseProgress) : List ParseTree → BaseProgress
  | [] => progress
  | tree :: rest => readBases fallback (readBase fallback progress tree) rest

end

/-- The bases of a record. -/
def bases (tree : ParseTree) (kind : EntityKind) : List Base :=
  (tree.children.filter (·.kind = "base_class_clause")).flatMap fun clause =>
    (source.readBases (defaultAccess kind) ⟨none, false, []⟩ clause.children).bases

/-- The head of a record that has a name. -/
def recordHead? (tree : ParseTree) : Option RecordHead := do
  return ⟨← recordKind? tree, source.plainSpelling (← tree.child? "name")⟩

/-- The head of a record that is declared, with its members, as the type of
something else. -/
def embeddedHead? (tree : ParseTree) : Option RecordHead := do
  let _ ← tree.child? "body"
  source.recordHead? tree

/-- The declaration of a record inside the scopes around it. -/
def record? (scope : List ScopeStep) (access : Option Access)
    (templateParameters : List String) (head : RecordHead) (tree : ParseTree) :
    Option Declaration :=
  let name := ScopedName.ofSpelling head.spelled
  if name.isGlobal then none
  else
    some {
      kind := head.kind
      name := name.simple
      scope := scope ++ qualifierSteps name
      isDefinition := (tree.child? "body").isSome
      line := tree.line
      access
      bases := source.bases tree head.kind
      templateParameters }

end SourceText

end DeclGraph
