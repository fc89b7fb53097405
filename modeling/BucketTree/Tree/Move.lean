import BucketTree.Tree.Basic

/-!
# Renaming

A store cannot rename, so an object is moved by a copy and a deletion of its source. A directory is
moved object by object in the order of the keys, its marker last, so that it exists until all of its
contents have moved. A move that stops with some objects moved, or with an object at both ends,
reports them; a move that stops before that changes nothing.
-/

set_option autoImplicit false

namespace BucketTree

/-- A completed rename. -/
structure Moved where
  source : Key
  destination : Key
  /-- The pairs of old and new key of the objects moved, in order. -/
  pairs : List (Key × Key)
deriving DecidableEq, Repr

namespace Move

/-- The failure that reports a fault of a copy. -/
def copyFailure (source destination : Key) (fault : Fault) : Failure :=
  let failure := fault.toFailure (some "COPY") (some source)
  if failure.isNotFound then .notFound source (.noRenameSource source)
  else .copy source destination (.copyFailed source destination failure.message)

/-- Copies an object by reading and writing it. -/
def copyThrough (source destination : Key) : Action Unit := do
  match ← Action.lift (Program.get source) with
  | .error fault => Action.fail (copyFailure source destination fault)
  | .ok body =>
      match ← Action.lift (Program.put destination (.ofBody body)) with
      | .error fault => Action.fail (copyFailure source destination fault)
      | .ok _ => return ()

/-- Copies an object within the store, or by reading and writing it if the store does not support
copies. -/
def copyObject (source destination : Key) : Action Unit := do
  match ← Action.lift (Program.copy source destination) with
  | .ok _ => return ()
  | .error fault =>
      if fault.isUnsupported then copyThrough source destination
      else Action.fail (copyFailure source destination fault)

/-- Deletes the source of a copy. A source that no longer exists is no error. -/
def deleteSource (source : Key) : Action Unit := do
  match ← Action.lift (Program.delete source) with
  | .ok _ => return ()
  | .error fault =>
      let failure := fault.toFailure (some "DELETE") (some source)
      if failure.isNotFound then return ()
      else Action.fail (.delete source (.deleteFailed source failure.message))

/-- Moves one object. -/
def file (source destination : Key) : Action Moved := do
  copyObject source destination
  match ← (deleteSource source).outcome with
  | .ok () => return ⟨source, destination, [(source, destination)]⟩
  | .error (.known failure) =>
      Action.fail (.partialMove source ⟨some destination, [], some source, true, true⟩
        (.sourceLeft source destination failure.message))
  | .error fault => throw fault

/-- Moves the object `key` as part of the move of a directory and records it. An object that no
longer exists is passed over. -/
def step (source destination key newKey : Key) : Walk (List (Key × Key)) Unit := do
  match ← Walk.ofAction (copyObject key newKey).outcome with
  | .error (.known failure) =>
      let pairs ← get
      if failure.isNotFound then return ()
      else if pairs.isEmpty then throw (.known failure)
      else
        throw (.known (.partialMove source ⟨some destination, pairs, some key, true, false⟩
          (.moveStopped source destination key failure.message)))
  | .error fault => throw fault
  | .ok () =>
      match ← Walk.ofAction (deleteSource key).outcome with
      | .error (.known failure) =>
          let pairs ← get
          throw (.known (.partialMove source ⟨some destination, pairs, some key, true, true⟩
            (.moveLeft source destination key failure.message)))
      | .error fault => throw fault
      | .ok () => modify (· ++ [(key, newKey)])

/-- The new key of `key` when the directory `source` becomes `destination`. -/
def newKey (source destination key : Key) : Key :=
  Key.directoryPrefix destination ++
    Text.dropFirst (Key.directoryPrefix source).toList.length key

/-- The context that a cancelled move reports. -/
def context (source : Key) : Option String := some s!"rename of {source}"

/-- Moves an object below a directory, unless the move has been cancelled. -/
def visit (source destination : Key) (cancel : Option Token) (key : Key) :
    Walk (List (Key × Key)) Unit := do
  Walk.ofAction (Action.checkCancelled cancel (context source))
  step source destination key (newKey source destination key)

/-- Moves the marker of a directory, if there is one. -/
def markerStep (suffix : String) (source destination : Key) : Walk (List (Key × Key)) Unit := do
  if (← Walk.ofAction (Directory.markerStatus suffix source)).isSome then
    let marker ← Walk.ofAction (Action.ofPath (Key.marker suffix source))
    let newMarker ← Walk.ofAction (Action.ofPath (Key.marker suffix destination))
    step source destination marker newMarker

/-- Moves the contents of a directory, then its marker. -/
def contents (settings : Settings) (pageLimit : Nat) (source destination : Key)
    (cancel : Option Token) : Walk (List (Key × Key)) Unit := do
  let listing := Listing.start (Key.directoryPrefix source) true settings.chunkLength cancel
  listing.walk (fun chunk => chunk.keys.forM (visit source destination cancel)) pageLimit
  Walk.ofAction (Action.checkCancelled cancel (context source))
  markerStep settings.folderSuffix source destination

/-- The failure arises between two objects: at a page, at a status or by a cancellation. -/
def isInterruption (failure : Failure) : Bool :=
  match failure.kind with
  | .listing => true
  | .statusQuery => true
  | .cancelled => true
  | _ => false

/-- Moves a directory. -/
def directory (settings : Settings) (pageLimit : Nat) (source destination : Key)
    (cancel : Option Token) : Action Moved := do
  let (outcome, pairs) ← (contents settings pageLimit source destination cancel).collect []
  match outcome with
  | .ok _ => return ⟨source, destination, pairs⟩
  | .error (.known failure) =>
      if isInterruption failure && !pairs.isEmpty then
        Action.fail (.partialMove source ⟨some destination, pairs, none, true, false⟩
          (.moveInterrupted source destination pairs.length failure.message))
      else Action.fail failure
  | .error fault => throw fault

end Move

namespace Tree

/-- Refuses a rename that its two paths alone rule out. -/
def checkEnds (source destination : Value) (sourceKey destinationKey : Key) :
    Except PathRefusal Unit :=
  if sourceKey == Key.root || destinationKey == Key.root then .error ⟨.rootRename, source⟩
  else if sourceKey == destinationKey then .error ⟨.sameEnds sourceKey, destination⟩
  else if Key.isAncestor sourceKey destinationKey then
    .error ⟨.intoItself sourceKey destinationKey, destination⟩
  else .ok ()

/-- Tells whether the destination of a rename is occupied. A file that may be replaced does not
count. -/
def isTaken (t : Tree) (path : Value) (mayReplace : Bool) : Action Bool := do
  if ← t.isFile path then return !mayReplace
  t.isDirectory path

/-- Renames a file or a directory. The destination must not exist, except that a file may
replace a file when `overwrite` is set. -/
def rename (t : Tree) (source destination : Value) (cancel : Option Token) (overwrite : Bool) :
    Action Moved := do
  let sourceKey ← t.key source
  let destinationKey ← t.key destination
  Action.ofPath (checkEnds source destination sourceKey destinationKey)
  let sourceIsFile := (← statusOf sourceKey).isSome
  if ← t.isTaken destination (overwrite && sourceIsFile) then
    Action.fail (.alreadyExists destinationKey (.destinationExists destinationKey))
  else if sourceIsFile then
    Move.file sourceKey destinationKey
  else if ← Directory.exists? t.suffix sourceKey then
    Move.directory t.settings t.pageLimit sourceKey destinationKey cancel
  else
    Action.fail (.notFound sourceKey (.noRenameSource (Key.toPath sourceKey)))

end Tree

end BucketTree
