import BucketTree.Proofs.Program.Candid
import BucketTree.Proofs.Tree.Queries
import BucketTree.Tree.Access
import BucketTree.Tree.Entries
import BucketTree.Tree.Move
import BucketTree.Tree.Removal

/-!
# Findings rest on tolerable exchanges

Several operations pass over an object that does not exist: a query answers `false`, a deletion or a
move goes on with the next object. Each of them inspects the failure first and passes over
`notFound` only; any other failure ends the operation with a fault that is no finding. So an
operation that ends with a finding has had tolerable exchanges only, in every part of its run
(`IsOperation.candid`).
-/

set_option autoImplicit false

namespace BucketTree

/-! ## Status -/

namespace Metadata

/-- Metadata with a status are a well-formed answer. -/
theorem isWellFormed_of_status {key : Key} {metadata : Option Metadata} {status : ObjectStatus}
    (h : Metadata.status key metadata = .ok status) :
    (Request.head key).IsWellFormed metadata := by
  unfold Metadata.status at h
  split at h
  · cases h
  · split at h
    next => cases h
    next => cases h
    next size millis hmeasures =>
      unfold measures? at hmeasures
      split at hmeasures
      next length time _ =>
        obtain ⟨n, hn, htold⟩ := Option.map_eq_some_iff.1 hmeasures
        cases htold
        refine ⟨length, time, size, rfl, ?_⟩
        cases hlength : length.toInteger with
        | error misuse => rw [hlength] at hn; cases hn
        | ok told => rw [hlength] at hn; cases hn; rfl
      next => cases hmeasures

/-- A fault of `Metadata.status` is no finding. -/
theorem not_isFinding_of_status {α : Type} {key : Key} {metadata : Option Metadata} {fault : Fault}
    (h : Metadata.status key metadata = .error fault) :
    ¬ IsFinding (.error fault : Except Fault α) := by
  unfold Metadata.status at h
  split at h
  · cases h
    exact not_isFinding_misuse _
  · split at h
    next => cases h; exact not_isFinding_known rfl
    next => cases h; exact not_isFinding_known rfl
    next => cases h

end Metadata

/-- A failure that is no finding is no `notFound`. -/
theorem isNotFound_of_not_isFinding {α : Type} {failure : Failure}
    (h : ¬ IsFinding (.error (.known failure) : Except Fault α)) : failure.isNotFound = false :=
  Bool.eq_false_iff.2 fun hnotFound => h (isFinding_of_isNotFound hnotFound)

/-- An intolerable fault of a request for an object does not become a `notFound` failure. -/
theorem isNotFound_of_not_isTolerable {request : Request} {fault : Fault}
    (h : ¬ Exchange.IsTolerable ⟨request, .error fault⟩) (hobject : ∀ page, request ≠ .list page)
    (operation : Option String) (key : Option Key) :
    (fault.toFailure operation key).isNotFound = false := by
  rw [Fault.toFailure_isNotFound]
  refine Bool.eq_false_iff.2 fun habsent => h ?_
  exact .absent hobject habsent

theorem candid_statusOf (key : Key) : (statusOf key).Candid := by
  refine Action.candid_lift_bind (Program.candid_request (.head key)) ?_ ?_
  · rintro (fault | metadata) _
    · dsimp only
      split
      · exact Action.candid_pure none
      · exact Action.candid_fail _
    · dsimp only
      split
      · exact Action.candid_pure _
      · exact Action.candid_throw _
  · -- a fault that is not tolerable does not say that there is no object, so it is passed on
    rintro (fault | metadata) hnot
    · have hfailure := isNotFound_of_not_isTolerable hnot (fun _ => nofun) (some "HEAD") (some key)
      dsimp only
      rw [hfailure, if_neg Bool.false_ne_true]
      exact Action.avoids_fail rfl
    · dsimp only
      cases hstatus : Metadata.status key metadata with
      | ok status => exact absurd (.answered (Metadata.isWellFormed_of_status hstatus)) hnot
      | error fault => exact Action.avoids_throw (Metadata.not_isFinding_of_status hstatus)

/-! ## Listings -/

namespace Listing

/-- A page that `chunkOf` accepts is a well-formed answer. -/
theorem isWellFormed_of_chunkOf {l : Listing} {page : Option Page} {chunk : Chunk}
    (h : l.chunkOf page = .ok chunk) : (Request.list l.pageRequest).IsWellFormed page := by
  unfold chunkOf at h
  split at h
  next keys groups next =>
    split at h
    next => cases h
    next hadvances =>
      refine ⟨keys, groups, next, rfl, ?_⟩
      rw [or_iff_not_imp_left]
      rintro hsome hsame
      refine hadvances (Bool.and_eq_true_iff.2 ⟨Option.isSome_iff_ne_none.2 hsome, ?_⟩)
      exact beq_iff_eq.2 hsame
  next => cases h

theorem candid_next (l : Listing) : l.next.Candid (fun r => IsFinding r.1) := by
  unfold next
  cases l.isDone with
  | true => exact Program.candid_pure _
  | false =>
      refine (Program.candid_isCancelled l.cancel).bind ?_ fun _ hnot => absurd trivial hnot
      intro flag _
      cases flag with
      | true => exact Program.candid_pure _
      | false =>
          refine (Program.candid_request (.list l.pageRequest)).bind ?_ ?_
          · rintro (fault | page) _
            · exact Program.candid_pure _
            · dsimp only
              split
              · exact Program.candid_pure _
              · exact Program.candid_pure _
          · -- a page that was refused or makes no sense is a failure of the listing
            rintro (fault | page) hnot
            · exact Program.avoids_pure (not_isFinding_known rfl)
            · dsimp only
              cases hchunk : l.chunkOf page with
              | ok chunk => exact absurd (.answered (isWellFormed_of_chunkOf hchunk)) hnot
              | error failure =>
                  refine Program.avoids_pure (not_isFinding_known ?_)
                  rw [kind_of_chunkOf hchunk]
                  rfl

theorem candid_first (l : Listing) : l.first.Candid := by
  refine Action.candid_lift_bind l.candid_next ?_ ?_
  · rintro ⟨outcome, l'⟩ _
    dsimp only
    split
    · exact Action.candid_throw _
    · exact Action.candid_pure _
    · exact Action.candid_pure _
  · rintro ⟨fault | chunk, l'⟩ hnot
    · exact Action.avoids_throw (Action.not_isFinding_of_error hnot)
    · exact absurd trivial hnot

/-- A walk with candid visits is candid. -/
theorem candid_walk {ρ : Type} {visit : Chunk → Walk ρ Unit}
    (hvisit : ∀ chunk, (visit chunk).Candid) :
    ∀ (pages : Nat) (l : Listing), (l.walk visit pages).Candid := by
  -- by induction on the pages that may still be asked for; the listing moves on with each of them
  intro pages
  induction pages with
  | zero =>
      intro l
      exact Walk.candid_ofAction (Action.candid_lift Program.candid_endless)
  | succ pages ih =>
      intro l
      refine Walk.candid_lift_bind l.candid_next ?_ ?_
      · rintro ⟨outcome, l'⟩ _
        dsimp only
        split
        · exact Walk.candid_throw _
        · exact Walk.candid_pure ()
        next chunk _ => exact (hvisit chunk).bind fun _ => ih l'
      · rintro ⟨fault | chunk, l'⟩ hnot
        · exact Walk.avoids_throw (Action.not_isFinding_of_error hnot)
        · exact absurd trivial hnot

end Listing

/-! ## Queries -/

namespace Directory

theorem candid_markerStatus (suffix : String) (key : Key) : (markerStatus suffix key).Candid := by
  unfold markerStatus
  split
  · exact Action.candid_pure none
  · exact (Action.candid_ofPath _).bind fun marker => candid_statusOf marker

theorem candid_hasChildren (key : Key) (cancel : Option Token) :
    (hasChildren key cancel).Candid :=
  (Listing.candid_first _).bind fun _ => Action.candid_pure _

theorem candid_exists? (suffix : String) (key : Key) : (exists? suffix key).Candid := by
  unfold exists?
  split
  · exact Action.candid_pure true
  · refine (candid_markerStatus suffix key).bind fun status => ?_
    split
    · exact Action.candid_pure true
    · exact candid_hasChildren key none

theorem candid_createMarker (suffix : String) (key : Key) : (createMarker suffix key).Candid := by
  refine (Action.candid_ofPath _).bind fun marker => ?_
  refine Action.candid_lift_bind (Program.candid_request (.put marker _)) ?_ ?_
  · rintro (fault | block) _
    · exact Action.candid_fail _
    · exact Action.candid_pure ()
  · rintro (fault | block) hnot
    · exact Action.avoids_fail rfl
    · exact absurd (.answered trivial) hnot

end Directory

namespace Tree

variable (t : Tree)

theorem candid_key (path : Value) : (t.key path).Candid := Action.candid_ofExcept _

theorem candid_refuseRoot (key : Key) (fault : PathFault) (path : Value) :
    (refuseRoot key fault path).Candid := by
  unfold refuseRoot
  split
  · exact Action.candid_fail _
  · exact Action.candid_pure ()

theorem candid_isFile (path : Value) : (t.isFile path).Candid := by
  refine (t.candid_key path).bind fun key => ?_
  split
  · exact Action.candid_pure false
  · exact (candid_statusOf key).bind fun _ => Action.candid_pure _

theorem candid_isDirectory (path : Value) : (t.isDirectory path).Candid :=
  (t.candid_key path).bind fun key => Directory.candid_exists? t.suffix key

theorem candid_exists? (path : Value) : (t.exists? path).Candid := by
  refine (t.candid_isFile path).bind fun isFile => ?_
  split
  · exact Action.candid_pure true
  · exact t.candid_isDirectory path

theorem candid_status (path : Value) : (t.status path).Candid := by
  refine (t.candid_key path).bind fun key => ?_
  split
  · exact Action.candid_pure _
  · refine (candid_statusOf key).bind fun object => ?_
    cases object with
    | some object => exact Action.candid_pure _
    | none =>
        refine (Directory.candid_markerStatus t.suffix key).bind fun marker => ?_
        cases marker with
        | some marker => exact Action.candid_pure _
        | none =>
            refine (Directory.candid_hasChildren key none).bind fun hasChildren => ?_
            split
            · exact Action.candid_pure _
            · exact Action.candid_fail _

theorem candid_listing (path : Value) (isRecursive : Bool) (cancel : Option Token) :
    (t.listing path isRecursive cancel).Candid :=
  (t.candid_key path).bind fun _ => Action.candid_pure _

theorem candid_list (path : Value) (isRecursive : Bool) (cancel : Option Token) :
    (t.list path isRecursive cancel).Candid := by
  refine (t.candid_key path).bind fun key => ?_
  refine (t.candid_listing path isRecursive cancel).bind fun listing => ?_
  refine (Listing.candid_walk (fun _ => Walk.candid_modify _) _ listing).collect_bind ?_ ?_
  · rintro ⟨fault | _, entries⟩ _
    · exact Action.candid_throw fault
    · dsimp only
      split
      · refine (Directory.candid_markerStatus t.suffix key).bind fun marker => ?_
        split
        · exact (Action.candid_fail _).bind fun _ => Action.candid_pure entries
        · exact Action.candid_pure entries
      · exact Action.candid_pure entries
  · rintro ⟨fault | _, entries⟩ hnot
    · exact Action.avoids_throw (Action.not_isFinding_of_error hnot)
    · exact absurd trivial hnot

/-! ## Deletion -/

theorem candid_deleteKey (key : Key) : (deleteKey key).Candid := by
  refine Action.candid_lift_bind (Program.candid_request (.delete key)) ?_ ?_
  · rintro (fault | _) _
    · dsimp only
      split
      · exact Action.candid_fail _
      · exact Action.candid_fail _
    · exact Action.candid_pure ()
  · rintro (fault | _) hnot
    · have hfailure :=
        isNotFound_of_not_isTolerable hnot (fun _ => nofun) (some "DELETE") (some key)
      dsimp only
      rw [hfailure, if_neg Bool.false_ne_true]
      exact Action.avoids_fail rfl
    · exact absurd (.answered trivial) hnot

theorem candid_deleteChild (key : Key) (cancel : Option Token) (child : Key) :
    (deleteChild key cancel child).Candid := by
  refine (Walk.candid_ofAction (Action.candid_checkCancelled _ _)).bind fun _ => ?_
  refine Walk.candid_outcome_bind (candid_deleteKey child) ?_ ?_
  · rintro (fault | _) _
    · cases fault with
      | known failure =>
          dsimp only
          split
          · exact Walk.candid_pure ()
          · exact Walk.candid_throw _
      | _ => exact Walk.candid_throw _
    · exact Walk.candid_modify _
  · rintro (fault | _) hnot
    · cases fault with
      | known failure =>
          dsimp only
          rw [isNotFound_of_not_isFinding hnot, if_neg Bool.false_ne_true]
          exact Walk.avoids_throw hnot
      | _ => exact Walk.avoids_throw hnot
    · exact absurd trivial hnot

theorem candid_deleteContents (key : Key) (cancel : Option Token) :
    (t.deleteContents key cancel).Candid := by
  refine (Listing.candid_walk (fun chunk => Walk.candid_forM (candid_deleteChild key cancel)) _
    _).collect_bind ?_ ?_
  · rintro ⟨fault | _, deleted⟩ _
    · cases fault with
      | known failure =>
          dsimp only
          split
          · exact Action.candid_fail _
          · exact Action.candid_fail _
      | _ => exact Action.candid_throw _
    · exact Action.candid_pure deleted
  · rintro ⟨fault | _, deleted⟩ hnot
    · cases fault with
      | known failure =>
          dsimp only
          split
          · exact Action.avoids_throw hnot
          · exact Action.avoids_fail rfl
      | _ => exact Action.avoids_throw hnot
    · exact absurd trivial hnot

theorem candid_deleteMarker (key : Key) (deleted : List Key) :
    (t.deleteMarker key deleted).Candid := by
  refine (Action.candid_ofPath _).bind fun marker => ?_
  refine (candid_deleteKey marker).outcome_bind ?_ ?_
  · rintro (fault | _) _
    · cases fault with
      | known failure =>
          dsimp only
          split
          · exact Action.candid_pure ()
          · split
            · exact Action.candid_fail _
            · exact Action.candid_fail _
      | _ => exact Action.candid_throw _
    · exact Action.candid_pure ()
  · rintro (fault | _) hnot
    · cases fault with
      | known failure =>
          dsimp only
          rw [isNotFound_of_not_isFinding hnot, if_neg Bool.false_ne_true]
          split
          · exact Action.avoids_throw hnot
          · exact Action.avoids_fail rfl
      | _ => exact Action.avoids_throw hnot
    · exact absurd trivial hnot

theorem candid_delete (path : Value) (isRecursive : Bool) (cancel : Option Token) :
    (t.delete path isRecursive cancel).Candid := by
  refine (t.candid_key path).bind fun key => ?_
  refine (candid_refuseRoot key _ path).bind fun _ => ?_
  refine (candid_statusOf key).bind fun object => ?_
  split
  · exact candid_deleteKey key
  · refine (Directory.candid_markerStatus t.suffix key).bind fun marker => ?_
    refine (Directory.candid_hasChildren key cancel).bind fun hasChildren => ?_
    split
    · exact Action.candid_fail _
    · split
      · exact Action.candid_fail _
      · split
        · split
          · exact (t.candid_deleteContents key cancel).bind fun deleted =>
              t.candid_deleteMarker key deleted
          · exact t.candid_deleteMarker key []
        · split
          · exact (t.candid_deleteContents key cancel).bind fun _ => Action.candid_pure ()
          · exact Action.candid_pure ()

end Tree

/-! ## Renaming -/

namespace Move

variable (source destination : Key)

/-- An intolerable fault of a copy does not become a finding. -/
theorem avoids_copyFailure {α : Type} {request : Request} {fault : Fault}
    (h : ¬ Exchange.IsTolerable ⟨request, .error fault⟩)
    (hobject : ∀ page, request ≠ .list page) :
    (Action.fail (copyFailure source destination fault) : Action α).Avoids := by
  unfold copyFailure
  dsimp only
  rw [isNotFound_of_not_isTolerable h hobject, if_neg Bool.false_ne_true]
  exact Action.avoids_fail rfl

theorem candid_copyThrough : (copyThrough source destination).Candid := by
  refine Action.candid_lift_bind (Program.candid_request (.get source)) ?_ ?_
  · rintro (fault | body) _
    · exact Action.candid_fail _
    · refine Action.candid_lift_bind (Program.candid_request (.put destination _)) ?_ ?_
      · rintro (fault | block) _
        · exact Action.candid_fail _
        · exact Action.candid_pure ()
      · rintro (fault | block) hnot
        · exact avoids_copyFailure source destination hnot fun _ => nofun
        · exact absurd (.answered trivial) hnot
  · rintro (fault | body) hnot
    · exact avoids_copyFailure source destination hnot fun _ => nofun
    · exact absurd (.answered trivial) hnot

theorem candid_copyObject : (copyObject source destination).Candid := by
  refine Action.candid_lift_bind (Program.candid_request (.copy source destination)) ?_ ?_
  · rintro (fault | _) _
    · dsimp only
      split
      · exact candid_copyThrough source destination
      · exact Action.candid_fail _
    · exact Action.candid_pure ()
  · rintro (fault | _) hnot
    · -- a store that does not copy is tolerable
      have hsupported : ¬ fault.isUnsupported = true := by
        intro hunsupported
        cases fault with
        | unsupported argument => exact hnot (.unsupported argument)
        | _ => cases hunsupported
      dsimp only
      rw [if_neg hsupported]
      exact avoids_copyFailure source destination hnot fun _ => nofun
    · exact absurd (.answered trivial) hnot

theorem candid_deleteSource : (deleteSource source).Candid := by
  refine Action.candid_lift_bind (Program.candid_request (.delete source)) ?_ ?_
  · rintro (fault | _) _
    · dsimp only
      split
      · exact Action.candid_pure ()
      · exact Action.candid_fail _
    · exact Action.candid_pure ()
  · rintro (fault | _) hnot
    · have hfailure :=
        isNotFound_of_not_isTolerable hnot (fun _ => nofun) (some "DELETE") (some source)
      dsimp only
      rw [hfailure, if_neg Bool.false_ne_true]
      exact Action.avoids_fail rfl
    · exact absurd (.answered trivial) hnot

theorem candid_file : (file source destination).Candid := by
  refine (candid_copyObject source destination).bind fun _ => ?_
  refine (candid_deleteSource source).outcome_bind ?_ ?_
  · rintro (fault | _) _
    · cases fault with
      | known failure => exact Action.candid_fail _
      | _ => exact Action.candid_throw _
    · exact Action.candid_pure _
  · rintro (fault | _) hnot
    · cases fault with
      | known failure => exact Action.avoids_fail rfl
      | _ => exact Action.avoids_throw hnot
    · exact absurd trivial hnot

theorem candid_step (key newKey : Key) : (step source destination key newKey).Candid := by
  refine Walk.candid_outcome_bind (candid_copyObject key newKey) ?_ ?_
  · rintro (fault | _) _
    · cases fault with
      | known failure =>
          refine Walk.candid_get_bind fun pairs => ?_
          split
          · exact Walk.candid_pure ()
          · split
            · exact Walk.candid_throw _
            · exact Walk.candid_throw _
      | _ => exact Walk.candid_throw _
    · refine Walk.candid_outcome_bind (candid_deleteSource key) ?_ ?_
      · rintro (fault | _) _
        · cases fault with
          | known failure => exact Walk.candid_get_bind fun pairs => Walk.candid_throw _
          | _ => exact Walk.candid_throw _
        · exact Walk.candid_modify _
      · rintro (fault | _) hnot
        · cases fault with
          | known failure =>
              refine Walk.avoids_get_bind fun pairs => ?_
              exact Walk.avoids_throw (not_isFinding_known rfl)
          | _ => exact Walk.avoids_throw hnot
        · exact absurd trivial hnot
  · rintro (fault | _) hnot
    · cases fault with
      | known failure =>
          refine Walk.avoids_get_bind fun pairs => ?_
          rw [isNotFound_of_not_isFinding hnot, if_neg Bool.false_ne_true]
          split
          · exact Walk.avoids_throw hnot
          · exact Walk.avoids_throw (not_isFinding_known rfl)
      | _ => exact Walk.avoids_throw hnot
    · exact absurd trivial hnot

theorem candid_visit (cancel : Option Token) (key : Key) :
    (visit source destination cancel key).Candid :=
  (Walk.candid_ofAction (Action.candid_checkCancelled _ _)).bind fun _ =>
    candid_step source destination key _

theorem candid_markerStep (suffix : String) :
    (markerStep suffix source destination).Candid := by
  refine (Walk.candid_ofAction (Directory.candid_markerStatus suffix source)).bind fun status => ?_
  split
  · refine (Walk.candid_ofAction (Action.candid_ofPath _)).bind fun marker => ?_
    refine (Walk.candid_ofAction (Action.candid_ofPath _)).bind fun newMarker => ?_
    exact candid_step source destination marker newMarker
  · exact Walk.candid_pure ()

theorem candid_contents (settings : Settings) (pageLimit : Nat) (cancel : Option Token) :
    (contents settings pageLimit source destination cancel).Candid := by
  refine (Listing.candid_walk (fun chunk => Walk.candid_forM
    (candid_visit source destination cancel)) pageLimit _).bind fun _ => ?_
  refine (Walk.candid_ofAction (Action.candid_checkCancelled _ _)).bind fun _ => ?_
  exact candid_markerStep source destination settings.folderSuffix

theorem candid_directory (settings : Settings) (pageLimit : Nat) (cancel : Option Token) :
    (directory settings pageLimit source destination cancel).Candid := by
  refine (candid_contents source destination settings pageLimit cancel).collect_bind ?_ ?_
  · rintro ⟨fault | _, pairs⟩ _
    · cases fault with
      | known failure =>
          dsimp only
          split
          · exact Action.candid_fail _
          · exact Action.candid_fail _
      | _ => exact Action.candid_throw _
    · exact Action.candid_pure _
  · rintro ⟨fault | _, pairs⟩ hnot
    · cases fault with
      | known failure =>
          dsimp only
          split
          · exact Action.avoids_fail rfl
          · exact Action.avoids_throw hnot
      | _ => exact Action.avoids_throw hnot
    · exact absurd trivial hnot

end Move

namespace Tree

variable (t : Tree)

theorem candid_isTaken (path : Value) (mayReplace : Bool) : (t.isTaken path mayReplace).Candid := by
  refine (t.candid_isFile path).bind fun isFile => ?_
  split
  · exact Action.candid_pure _
  · exact t.candid_isDirectory path

theorem candid_rename (source destination : Value) (cancel : Option Token) (overwrite : Bool) :
    (t.rename source destination cancel overwrite).Candid := by
  refine (t.candid_key source).bind fun sourceKey => ?_
  refine (t.candid_key destination).bind fun destinationKey => ?_
  refine (Action.candid_ofPath _).bind fun _ => ?_
  refine (candid_statusOf sourceKey).bind fun object => ?_
  refine (t.candid_isTaken destination _).bind fun isTaken => ?_
  split
  · exact Action.candid_fail _
  · split
    · exact Move.candid_file sourceKey destinationKey
    · refine (Directory.candid_exists? t.suffix sourceKey).bind fun isDirectory => ?_
      split
      · exact Move.candid_directory sourceKey destinationKey t.settings t.pageLimit cancel
      · exact Action.candid_fail _

/-! ## Opening and creating -/

theorem candid_openForRead (path offset : Value) : (t.openForRead path offset).Candid := by
  refine (Action.candid_ofExcept _).bind fun isBelow => ?_
  split
  · exact Action.candid_throw_bind _ _
  · refine (t.candid_key path).bind fun key => ?_
    refine (candid_refuseRoot key _ path).bind fun _ => ?_
    refine Action.candid_lift_bind (Program.candid_request (.openRange key offset)) ?_ ?_
    · rintro (fault | stream) _
      · dsimp only
        split
        · exact Action.candid_fail _
        · exact Action.candid_fail _
      · exact Action.candid_pure _
    · rintro (fault | stream) hnot
      · have hfailure := isNotFound_of_not_isTolerable hnot (fun _ => nofun) (some "GET") (some key)
        dsimp only
        rw [hfailure, if_neg Bool.false_ne_true]
        exact Action.avoids_fail rfl
      · exact absurd (.answered trivial) hnot

theorem candid_openForWrite (path : Value) (data : Bytes) : (t.openForWrite path data).Candid := by
  refine (t.candid_key path).bind fun key => ?_
  exact (candid_refuseRoot key _ path).bind fun _ => Action.candid_pure _

theorem candid_makeDirectory : ∀ (calls : Nat) (path : Value) (createParents : Bool),
    (t.makeDirectory calls path createParents).Candid := by
  intro calls
  induction calls with
  | zero => exact fun _ _ => Action.candid_throw _
  | succ calls ih =>
      intro path createParents
      refine (t.candid_key path).bind fun key => ?_
      have hmake : (Directory.createMarker t.suffix key >>= fun _ => pure true).Candid :=
        (Directory.candid_createMarker t.suffix key).bind fun _ => Action.candid_pure true
      split
      · exact Action.candid_pure false
      · refine (candid_statusOf key).bind fun object => ?_
        dsimp only
        split
        · exact Action.candid_fail_bind _ _
        · refine (Directory.candid_exists? t.suffix key).bind fun isThere => ?_
          split
          · exact Action.candid_pure false
          · split
            · exact hmake
            next parent _ =>
              split
              · -- a parent that is missing is made first
                refine (Directory.candid_exists? t.suffix parent).bind fun isThere => ?_
                split
                · exact hmake
                · split
                  · exact Action.candid_fail_bind _ _
                  · exact (ih _ true).discard.bind fun _ => hmake
              · exact hmake

theorem candid_mkdirs (path : Value) (createParents : Bool) :
    (t.mkdirs path createParents).Candid :=
  t.candid_makeDirectory _ path createParents

theorem candid_create (path : Value) (createParents : Bool) :
    (t.create path createParents).Candid := by
  have hopen := t.candid_openForWrite path []
  refine (t.candid_key path).bind fun key => ?_
  split
  · split
    · exact hopen
    · split
      · exact (t.candid_mkdirs _ true).discard.bind fun _ => hopen
      · exact hopen
  · exact hopen

end Tree

/-! ## Uploading -/

namespace Writer

theorem candid_upload (w : Writer) : w.upload.Candid (fun r => IsFinding r.1) := by
  unfold upload
  split
  · exact Program.candid_pure _
  · refine (Program.candid_request (.put w.key w.uploaded)).bind ?_ ?_
    · rintro (fault | block) _
      · exact Program.candid_pure _
      · exact Program.candid_pure _
    · rintro (fault | block) hnot
      · exact Program.avoids_pure (not_isFinding_known rfl)
      · exact absurd (.answered trivial) hnot

theorem candid_sync (w : Writer) : w.sync.Candid (fun r => IsFinding r.1) := by
  unfold sync
  split
  · exact Program.candid_pure _
  · exact w.candid_upload

theorem candid_close (w : Writer) : w.close.Candid (fun r => IsFinding r.1) := by
  unfold close
  split
  · exact Program.candid_pure _
  · refine w.candid_upload.bind ?_ ?_
    · rintro ⟨outcome, w'⟩ _
      dsimp only
      split
      · exact Program.candid_pure _
      · exact Program.candid_pure _
    · -- closing the buffer cannot mend an upload that failed
      rintro ⟨outcome, w'⟩ hnot
      dsimp only
      split
      · exact Program.avoids_pure (not_isFinding_misuse _)
      · exact Program.avoids_pure hnot

end Writer

namespace Tree

/-- Rule for a program that returns an outcome, followed by `ofExcept`. -/
theorem candid_outcome {σ : Type} {p : Program (Except Fault Unit × σ)}
    (hp : p.Candid fun r => IsFinding r.1) :
    (Action.lift p >>= fun r => Action.ofExcept r.1).Candid :=
  Action.candid_lift_bind hp (fun _ _ => Action.candid_ofExcept _) fun _ hnot =>
    Action.avoids_ofExcept hnot

/-! ## Operations -/

/-- The operations of a tree and of its writers. -/
inductive IsOperation (t : Tree) : {α : Type} → Action α → Prop
  | isFile (path : Value) : IsOperation t (t.isFile path)
  | isDirectory (path : Value) : IsOperation t (t.isDirectory path)
  | exists? (path : Value) : IsOperation t (t.exists? path)
  | status (path : Value) : IsOperation t (t.status path)
  | list (path : Value) (isRecursive : Bool) (cancel : Option Token) :
      IsOperation t (t.list path isRecursive cancel)
  | delete (path : Value) (isRecursive : Bool) (cancel : Option Token) :
      IsOperation t (t.delete path isRecursive cancel)
  | rename (source destination : Value) (cancel : Option Token) (overwrite : Bool) :
      IsOperation t (t.rename source destination cancel overwrite)
  | mkdirs (path : Value) (createParents : Bool) : IsOperation t (t.mkdirs path createParents)
  | create (path : Value) (createParents : Bool) : IsOperation t (t.create path createParents)
  | openForRead (path offset : Value) : IsOperation t (t.openForRead path offset)
  | closeWriter (w : Writer) : IsOperation t (closeWriter w)
  | syncWriter (w : Writer) :
      IsOperation t (Action.lift w.sync >>= fun r => Action.ofExcept r.1)

/-- Every operation is candid. -/
theorem IsOperation.candid {t : Tree} {α : Type} {a : Action α} (h : t.IsOperation a) :
    a.Candid := by
  cases h with
  | isFile path => exact t.candid_isFile path
  | isDirectory path => exact t.candid_isDirectory path
  | exists? path => exact t.candid_exists? path
  | status path => exact t.candid_status path
  | list path isRecursive cancel => exact t.candid_list path isRecursive cancel
  | delete path isRecursive cancel => exact t.candid_delete path isRecursive cancel
  | rename source destination cancel overwrite =>
      exact t.candid_rename source destination cancel overwrite
  | mkdirs path createParents => exact t.candid_mkdirs path createParents
  | create path createParents => exact t.candid_create path createParents
  | openForRead path offset => exact t.candid_openForRead path offset
  | closeWriter w => exact candid_outcome w.candid_close
  | syncWriter w => exact candid_outcome w.candid_sync

/-- An operation that ends with a finding, on any backend, has had tolerable exchanges only. A
remote fault with a status among them is an absence only by the statuses `notFound` and
`unknown`. -/
theorem finding_rests_on_tolerable {t : Tree} {α : Type} {a : Action α} (ha : t.IsOperation a)
    {σ : Type} (backend : Backend σ) (s : σ) {outcome : Except Fault α}
    (hend : (a.perform backend s).1 = some outcome) (hfinding : IsFinding outcome) :
    (∀ e ∈ a.exchanges backend s, e.IsTolerable) ∧
    ∀ status details, (Fault.remote (some status) details).isAbsence = true →
      status = .notFound ∨ status = .unknown :=
  ⟨ha.candid σ backend s outcome hend hfinding, fun _ _ h => Fault.status_of_isAbsence h⟩

/-- A deletion of a missing path asks for the object, for the marker and for a page of children. -/
theorem finding_rests_on_tolerable_missing :
    IsFinding (.error (.known (.notFound "m" (.noSuchEntry "m"))) : Except Fault Unit) ∧
    (∀ e ∈ (keyByKey.delete "/m" true none).exchanges (Memory.backend "b") shelf, e.IsTolerable) ∧
    ((keyByKey.delete "/m" true none).exchanges (Memory.backend "b") shelf).length = 3 := by
  have hend : ((keyByKey.delete "/m" true none).perform (Memory.backend "b") shelf).1 =
      some (.error (.known (.notFound "m" (.noSuchEntry "m")))) := rfl
  have hfinding :
      IsFinding (.error (.known (.notFound "m" (.noSuchEntry "m"))) : Except Fault Unit) :=
    ⟨_, rfl, rfl⟩
  obtain ⟨htolerable, -⟩ := finding_rests_on_tolerable (.delete "/m" true none)
    (Memory.backend "b") shelf hend hfinding
  exact ⟨hfinding, htolerable, rfl⟩

end Tree

end BucketTree
