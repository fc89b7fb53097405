import BucketTree.Proofs.Content.Upload
import BucketTree.Proofs.Program.Halts
import BucketTree.Tree.Access
import BucketTree.Tree.Move
import BucketTree.Tree.Removal

/-!
# Actions that halt

An action on one path halts for every sequence of answers, since it sends a bounded number of
requests for single objects and for first pages. The visits of a walk halt for the same reason.
-/

set_option autoImplicit false

namespace BucketTree

theorem halts_statusOf (key : Key) : (statusOf key).Halts := by
  refine (Action.halts_request (.head key)).bind fun outcome => ?_
  cases outcome with
  | ok metadata =>
      dsimp only
      split
      · exact Action.halts_pure _
      · exact Action.halts_throw _
  | error fault =>
      dsimp only
      split
      · exact Action.halts_pure _
      · exact Action.halts_fail _

namespace Listing

theorem halts_next (l : Listing) : l.next.Halts := by
  unfold next
  cases hdone : l.isDone with
  | true => exact Program.halts_pure _
  | false =>
      refine (Program.halts_isCancelled l.cancel).bind fun flag => ?_
      cases flag with
      | true => exact Program.halts_pure _
      | false =>
          refine (Program.halts_request (.list l.pageRequest)).bind fun outcome => ?_
          cases outcome with
          | error fault => exact Program.halts_pure _
          | ok page =>
              dsimp only
              cases hchunk : l.chunkOf page with
              | error failure => exact Program.halts_pure _
              | ok chunk => exact Program.halts_pure _

theorem halts_first (l : Listing) : l.first.Halts := by
  refine (Action.halts_lift l.halts_next).bind fun r => ?_
  split
  · exact Action.halts_throw _
  · exact Action.halts_pure _
  · exact Action.halts_pure _

end Listing

namespace Directory

variable (suffix : String) (key : Key)

theorem halts_markerStatus : (markerStatus suffix key).Halts := by
  unfold markerStatus
  split
  · exact Action.halts_pure _
  · exact (Action.halts_ofPath _).bind halts_statusOf

theorem halts_hasChildren (cancel : Option Token) : (hasChildren key cancel).Halts :=
  (Listing.halts_first _).bind fun _ => Action.halts_pure _

theorem halts_exists? : (exists? suffix key).Halts := by
  unfold exists?
  split
  · exact Action.halts_pure _
  · refine (halts_markerStatus suffix key).bind fun status => ?_
    split
    · exact Action.halts_pure _
    · exact halts_hasChildren key none

theorem halts_createMarker : (createMarker suffix key).Halts := by
  refine (Action.halts_ofPath _).bind fun marker => ?_
  refine (Action.halts_request (.put marker (.ofBody (.fresh [])))).bind fun outcome => ?_
  cases outcome with
  | ok _ => exact Action.halts_pure _
  | error fault => exact Action.halts_fail _

end Directory

namespace Tree

variable (t : Tree) (path : Value)

theorem halts_key : (t.key path).Halts := Action.halts_ofExcept _

theorem halts_refuseRoot (key : Key) (fault : PathFault) (path : Value) :
    (refuseRoot key fault path).Halts := by
  unfold refuseRoot
  split
  · exact Action.halts_fail _
  · exact Action.halts_pure _

theorem halts_isFile : (t.isFile path).Halts := by
  refine (halts_key t path).bind fun key => ?_
  split
  · exact Action.halts_pure _
  · exact (halts_statusOf key).bind fun _ => Action.halts_pure _

theorem halts_isDirectory : (t.isDirectory path).Halts :=
  (halts_key t path).bind fun key => Directory.halts_exists? t.suffix key

theorem halts_status : (t.status path).Halts := by
  refine (halts_key t path).bind fun key => ?_
  split
  · exact Action.halts_pure _
  · refine (halts_statusOf key).bind fun object => ?_
    cases object with
    | some object => exact Action.halts_pure _
    | none =>
        refine (Directory.halts_markerStatus t.suffix key).bind fun marker => ?_
        cases marker with
        | some marker => exact Action.halts_pure _
        | none =>
            refine (Directory.halts_hasChildren key none).bind fun hasChildren => ?_
            split
            · exact Action.halts_pure _
            · exact Action.halts_fail _

theorem halts_openForRead (offset : Value) : (t.openForRead path offset).Halts := by
  refine Action.Halts.bind (Action.halts_ofExcept _) fun isBelow => ?_
  split
  · exact Action.halts_throw_bind _ _
  · refine (halts_key t path).bind fun key => (halts_refuseRoot key _ path).bind fun _ => ?_
    refine (Action.halts_lift (Program.halts_request _)).bind fun outcome => ?_
    cases outcome with
    | ok stream => exact Action.halts_pure _
    | error fault =>
        dsimp only
        split
        · exact Action.halts_fail _
        · exact Action.halts_fail _

theorem halts_readOnce (offset : Value) (size : Int) : (t.readOnce path offset size).Halts :=
  (halts_openForRead t path offset).bind fun _ => (Action.halts_ofExcept _).bind fun _ =>
    Action.halts_ofExcept _

theorem halts_openForWrite (data : Bytes) : (t.openForWrite path data).Halts :=
  (halts_key t path).bind fun key => (halts_refuseRoot key _ path).bind fun _ =>
    Action.halts_pure _

theorem halts_storeFile (data : Bytes) : (t.storeFile path data).Halts :=
  (halts_openForWrite t path data).bind fun w =>
    (Action.halts_lift (Writer.halts_close w)).bind fun _ => Action.halts_ofExcept _

/-! ## Making and removing -/

/-- The operation `mkdirs` without missing parents to make does not recurse. -/
theorem halts_mkdirs : (t.mkdirs path false).Halts := by
  refine (halts_key t path).bind fun key => ?_
  split
  · exact Action.halts_pure _
  · have hmake : Action.Halts (Directory.createMarker t.suffix key >>= fun _ => pure true) :=
      (Directory.halts_createMarker t.suffix key).bind fun _ => Action.halts_pure _
    refine (halts_statusOf key).bind fun object => ?_
    dsimp only
    split
    · exact Action.halts_throw_bind _ _
    · refine (Directory.halts_exists? t.suffix key).bind fun isThere => ?_
      split
      · exact Action.halts_pure _
      · split
        · exact hmake
        next parent _ =>
          split
          · refine (Directory.halts_exists? t.suffix parent).bind fun isThere => ?_
            split
            · exact hmake
            · exact Action.halts_throw_bind _ _
          · exact hmake

theorem halts_deleteKey (key : Key) : (deleteKey key).Halts := by
  refine (Action.halts_request (.delete key)).bind fun outcome => ?_
  cases outcome with
  | ok _ => exact Action.halts_pure _
  | error fault =>
      dsimp only
      split
      · exact Action.halts_fail _
      · exact Action.halts_fail _

theorem halts_deleteMarker (key : Key) (deleted : List Key) :
    (t.deleteMarker key deleted).Halts := by
  refine (Action.halts_ofPath _).bind fun marker => ?_
  refine (halts_deleteKey marker).outcome.bind fun outcome => ?_
  split
  · exact Action.halts_pure _
  · split
    · exact Action.halts_pure _
    · split
      · exact Action.halts_fail _
      · exact Action.halts_fail _
  · exact Action.halts_throw _

/-- A deletion that is not recursive does not walk over the objects below a directory. -/
theorem halts_delete (cancel : Option Token) : (t.delete path false cancel).Halts := by
  refine (halts_key t path).bind fun key => (halts_refuseRoot key _ path).bind fun _ => ?_
  refine (halts_statusOf key).bind fun object => ?_
  split
  · exact halts_deleteKey key
  · refine (Directory.halts_markerStatus t.suffix key).bind fun marker => ?_
    refine (Directory.halts_hasChildren key cancel).bind fun hasChildren => ?_
    split
    · exact Action.halts_fail _
    · split
      · exact Action.halts_fail _
      next hkept =>
        rw [Bool.not_false, Bool.and_true, Bool.not_eq_true] at hkept
        subst hkept
        rw [if_neg Bool.false_ne_true, pure_bind]
        split
        · exact halts_deleteMarker t key []
        · exact Action.halts_pure _

end Tree

/-! ## Moving an object -/

namespace Move

variable (source destination : Key)

theorem halts_copyThrough : (copyThrough source destination).Halts := by
  refine (Action.halts_request (.get source)).bind fun outcome => ?_
  cases outcome with
  | error fault => exact Action.halts_fail _
  | ok body =>
      refine Action.Halts.bind (Action.halts_request (.put destination (.ofBody body)))
        fun outcome => ?_
      cases outcome with
      | ok _ => exact Action.halts_pure _
      | error fault => exact Action.halts_fail _

theorem halts_copyObject : (copyObject source destination).Halts := by
  refine (Action.halts_request (.copy source destination)).bind fun outcome => ?_
  cases outcome with
  | ok _ => exact Action.halts_pure _
  | error fault =>
      dsimp only
      split
      · exact halts_copyThrough source destination
      · exact Action.halts_fail _

theorem halts_deleteSource : (deleteSource source).Halts := by
  refine (Action.halts_request (.delete source)).bind fun outcome => ?_
  cases outcome with
  | ok _ => exact Action.halts_pure _
  | error fault =>
      dsimp only
      split
      · exact Action.halts_pure _
      · exact Action.halts_fail _

theorem halts_file : (file source destination).Halts := by
  refine (halts_copyObject source destination).bind fun _ => ?_
  refine (halts_deleteSource source).outcome.bind fun outcome => ?_
  split
  · exact Action.halts_pure _
  · exact Action.halts_fail _
  · exact Action.halts_throw _

theorem halts_step (key newKey : Key) :
    Recorded.Halts (step source destination key newKey) := by
  refine (Recorded.halts_ofAction (halts_copyObject key newKey).outcome).bind fun outcome => ?_
  split
  · refine Recorded.halts_get.bind fun pairs => ?_
    split
    · exact Recorded.halts_pure _
    · split
      · exact Recorded.halts_throw _
      · exact Recorded.halts_throw _
  · exact Recorded.halts_throw _
  · refine (Recorded.halts_ofAction (halts_deleteSource key).outcome).bind fun outcome => ?_
    split
    · exact Recorded.halts_get.bind fun _ => Recorded.halts_throw _
    · exact Recorded.halts_throw _
    · exact Recorded.halts_modify _

theorem halts_visit (cancel : Option Token) (key : Key) :
    Recorded.Halts (visit source destination cancel key) :=
  (Recorded.halts_ofAction (Action.halts_checkCancelled _ _)).bind fun _ =>
    halts_step source destination key _

theorem halts_markerStep (suffix : String) :
    Recorded.Halts (markerStep suffix source destination) := by
  refine (Recorded.halts_ofAction (Directory.halts_markerStatus suffix source)).bind
    fun status => ?_
  split
  · exact (Recorded.halts_ofAction (Action.halts_ofPath _)).bind fun marker =>
      (Recorded.halts_ofAction (Action.halts_ofPath _)).bind fun newMarker =>
        halts_step source destination marker newMarker
  · exact Recorded.halts_pure _

end Move

end BucketTree
