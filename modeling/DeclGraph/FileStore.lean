import DeclGraph.SourceFile

/-!
# Stored files

A file is kept at its place: the names of the directories on the way to it and
its own name, seen from the directory in which relative paths start. A path is
followed piece by piece, and each piece has to start from a directory. So a
separator behind the name of a file leads nowhere, although it makes no
difference when paths are compared.
-/

namespace DeclGraph

/-- A stored file: its bytes, and the parse tree of the text they encode. -/
structure StoredFile where
  bytes : ByteArray
  tree : ParseTree

/-- The names on the way to a file or a directory, its own name last. -/
abbrev Place := List (List UInt8)

/-- The place of a relative path that does not go up. -/
def FilePath.place? (path : FilePath) : Option Place :=
  (path.components.filter (· ≠ .here)).mapM (·.name?)

/-- Where a piece of a path leads from a directory. There is nothing above the
directory in which paths start. -/
def Place.next? (place : Place) (piece : List UInt8) : Option Place :=
  if piece = [] ∨ piece = [FilePath.dot] then some place
  else if piece = [FilePath.dot, FilePath.dot] then
    if place = [] then none else some place.dropLast
  else some (place ++ [piece])

/-- Files at their places, the latest first. -/
structure FileStore where
  files : List (Place × StoredFile)

namespace FileStore

/-- A store without any file. -/
def empty : FileStore := ⟨[]⟩

/-- The file kept at a place. -/
def fileAt? (store : FileStore) (place : Place) : Option StoredFile :=
  store.files.lookup place

/-- Whether a file is kept below a place. -/
def holdsBelow (store : FileStore) (place : Place) : Bool :=
  store.files.any fun (kept, _) => place.isPrefixOf kept && kept != place

/-- Whether a file is kept on the way to a place. -/
def blocks (store : FileStore) (place : Place) : Bool :=
  store.files.any fun (kept, _) => kept.isPrefixOf place && kept != place

/-- Whether a place is a directory: the one in which paths start, or one on the
way to a file. -/
def isDirectory (store : FileStore) (place : Place) : Bool :=
  place.isEmpty || store.holdsBelow place

/-- Keeps a file at a place instead of what was kept there before. A file takes
no directory's place and stands on the way to no other file. -/
def insert? (store : FileStore) (place : Place) (file : StoredFile) : Option FileStore :=
  if store.isDirectory place || store.blocks place then none
  else some ⟨(place, file) :: store.files⟩

/-- Follows the pieces of a path from a place. -/
def follow (store : FileStore) (place : Place) :
    List (List UInt8) → Except AccessFailure Place
  | [] => .ok place
  | piece :: rest =>
    if store.isDirectory place then
      match place.next? piece with
      | some next => store.follow next rest
      | none => .error .missing
    else if (store.fileAt? place).isSome then .error .notDirectory
    else .error .missing

/-- The file a path leads to. Nothing is kept under absolute paths, and the
empty path leads nowhere. -/
def find (store : FileStore) (path : FilePath) : Except AccessFailure StoredFile :=
  if path.bytes = [] ∨ path.bytes.head? = some FilePath.separator then .error .missing
  else do
    let place ← store.follow [] (Text.cutAt FilePath.separator path.bytes)
    match store.fileAt? place with
    | some file => .ok file
    | none => .error (if store.isDirectory place then .directory else .missing)

/-- A file that was just kept is the one at its place, and no other place has
changed. -/
theorem fileAt?_insert? {store next : FileStore} {place : Place} {file : StoredFile}
    (kept : store.insert? place file = some next) (other : Place) :
    next.fileAt? other = if other = place then some file else store.fileAt? other := by
  unfold insert? at kept
  split at kept
  · contradiction
  · obtain rfl := Option.some.inj kept
    by_cases same : other = place
    · simp [fileAt?, same]
    · have differs : (other == place) = false := beq_false_of_ne same
      simp [fileAt?, List.lookup_cons, same, differs]

end FileStore

end DeclGraph
