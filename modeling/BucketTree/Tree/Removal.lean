import BucketTree.Tree.Basic

/-!
# Deletion

A file is deleted by one request. A directory is deleted object by object in the order of the keys,
its marker last. A deletion that stops after some objects were deleted reports them; a deletion that
stops before that changes nothing and reports the failure unchanged.
-/

set_option autoImplicit false

namespace BucketTree.Tree

/-- Deletes the object at a key. -/
def deleteKey (key : Key) : Action Unit := do
  match ← Action.lift (Program.delete key) with
  | .ok _ => return ()
  | .error fault =>
      let failure := fault.toFailure (some "DELETE") (some key)
      if failure.isNotFound then Action.fail (.notFound key (.noSuchEntry key))
      else Action.fail (.delete key (.deleteFailed key failure.message))

/-- Deletes an object below `key` and records it. An object that no longer exists is not
recorded. -/
def deleteChild (key : Key) (cancel : Option Token) (child : Key) : Walk (List Key) Unit := do
  Walk.ofAction (Action.checkCancelled cancel (some s!"delete of {key}"))
  match ← Walk.ofAction (deleteKey child).outcome with
  | .ok () => modify (· ++ [child])
  | .error (.known failure) => if failure.isNotFound then return () else throw (.known failure)
  | .error fault => throw fault

/-- Deletes the objects below `key` and returns their keys. -/
def deleteContents (t : Tree) (key : Key) (cancel : Option Token) : Action (List Key) := do
  let listing := Listing.start (Key.directoryPrefix key) true t.settings.chunkLength cancel
  let visit : Chunk → Walk (List Key) Unit := fun chunk =>
    chunk.keys.forM (deleteChild key cancel)
  let (outcome, deleted) ← (listing.walk visit t.pageLimit).collect []
  match outcome with
  | .ok _ => return deleted
  | .error (.known failure) =>
      if deleted.isEmpty then Action.fail failure
      else
        let failedKey := if failure.isDelete then failure.key else none
        Action.fail (.partialDelete key deleted failedKey
          (.deleteStopped key deleted.length failure.message))
  | .error fault => throw fault

/-- Deletes the marker of `key` after the objects in `deleted`. -/
def deleteMarker (t : Tree) (key : Key) (deleted : List Key) : Action Unit := do
  let marker ← Action.ofPath (Key.marker t.suffix key)
  match ← (deleteKey marker).outcome with
  | .ok () => return ()
  | .error (.known failure) =>
      if failure.isNotFound then return ()
      else if deleted.isEmpty then Action.fail failure
      else
        Action.fail (.partialDelete key deleted failure.key (.markerLeft key failure.message))
  | .error fault => throw fault

/-- Deletes a file or a directory. A directory with children is deleted only if `isRecursive` is
set. -/
def delete (t : Tree) (path : Value) (isRecursive : Bool) (cancel : Option Token) :
    Action Unit := do
  let key ← t.key path
  refuseRoot key .rootDelete path
  if (← statusOf key).isSome then
    deleteKey key
  else
    let marker ← Directory.markerStatus t.suffix key
    let hasChildren ← Directory.hasChildren key cancel
    if marker.isNone && !hasChildren then
      Action.fail (.notFound key (.noSuchEntry key))
    else if hasChildren && !isRecursive then
      Action.fail ⟨.notEmpty, some key, .notEmpty key⟩
    else
      let deleted ← if hasChildren then t.deleteContents key cancel else pure []
      if marker.isSome then t.deleteMarker key deleted

end BucketTree.Tree
