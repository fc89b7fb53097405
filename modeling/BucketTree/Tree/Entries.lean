import BucketTree.Tree.Basic

/-!
# Directory entries

The entries of a directory are read from the names of a listing. A group of keys is a directory. A
marker is the directory it belongs to. A key with a separator at its end, which other tools write
for an empty directory, is a directory too. A listing of all levels names entries by their path from
the listed directory and adds the ancestors of each. Entries come in the order of the first names
that give them, without repetitions.
-/

set_option autoImplicit false

namespace BucketTree

/-- An entry of a directory. Its name is relative to the listed directory. -/
structure DirectoryEntry where
  name : String
  isDirectory : Bool
deriving DecidableEq, Repr

namespace DirectoryEntry

/-- The directory entry of a name without the separators at its ends, if anything is left. -/
def directory? (name : String) : Option DirectoryEntry :=
  let inner := Text.trim Key.separator name
  if inner.isEmpty then none else some ⟨inner, true⟩

/-- The entry of a group of keys; `under` is the prefix of the listed directory. -/
def ofGroup? (under group : String) : Option DirectoryEntry :=
  directory? (Text.dropFirst under.toList.length group)

/-- The entry of a key. -/
def ofKey? (suffix under : String) (key : Key) : Option DirectoryEntry :=
  let name := Text.dropFirst under.toList.length key
  if name.isEmpty || Text.endsWith name Key.separatorText then directory? name
  else if Key.isMarker suffix name then
    let stripped := Key.withoutSuffix suffix name
    if stripped.isEmpty then none else some ⟨stripped, true⟩
  else some ⟨name, false⟩

/-- The directories between the listed directory and an entry, outermost first. -/
def ancestors (e : DirectoryEntry) : List DirectoryEntry :=
  let parts := (e.name.toList.splitOn Key.separator).map String.ofList
  (List.range (parts.length - 1)).map fun i =>
    ⟨Key.separatorText.intercalate (parts.take (i + 1)), true⟩

/-- An entry, preceded by its ancestors in a listing of all levels. -/
def withAncestors (isRecursive : Bool) (e : DirectoryEntry) : List DirectoryEntry :=
  if isRecursive then e.ancestors ++ [e] else [e]

/-- The entries of a chunk: those of its groups, then those of its keys. -/
def ofChunk (suffix under : String) (isRecursive : Bool) (chunk : Chunk) : List DirectoryEntry :=
  (chunk.groups.filterMap (ofGroup? under) ++ chunk.keys.filterMap (ofKey? suffix under)).flatMap
    (withAncestors isRecursive)

/-- The entries with a new one at the end, unless it is among them. -/
def addNew (entries : List DirectoryEntry) (e : DirectoryEntry) : List DirectoryEntry :=
  if entries.contains e then entries else entries ++ [e]

end DirectoryEntry

namespace Tree

/-- The entries of a directory. A directory without entries, other than the root, must have a
marker. -/
def list (t : Tree) (path : Value) (isRecursive : Bool) (cancel : Option Token) :
    Action (List DirectoryEntry) := do
  let key ← t.key path
  let under := Key.directoryPrefix key
  let collect : Chunk → Walk (List DirectoryEntry) Unit := fun chunk =>
    modify fun entries =>
      (DirectoryEntry.ofChunk t.suffix under isRecursive chunk).foldl DirectoryEntry.addNew entries
  let listing ← t.listing path isRecursive cancel
  let (outcome, entries) ← (listing.walk collect t.pageLimit).collect []
  match outcome with
  | .error fault => throw fault
  | .ok _ =>
      if entries.isEmpty && key != Key.root then
        if (← Directory.markerStatus t.suffix key).isNone then
          Action.fail (.notFound key (.noSuchDirectory key))
      return entries

end Tree

end BucketTree
