import BucketTree.Proofs.Content.Faults
import BucketTree.Proofs.Contract.Access
import BucketTree.Proofs.Tree.Listing
import BucketTree.Tree.Entries
import BucketTree.Tree.Move
import BucketTree.Tree.Removal

/-!
# How the operations of a tree fail

The faults of the operations of a tree are stated once for all stores: those of a query by
`Contract.AllowsQueries`, and those of an operation that changes the store by
`Contract.AllowsChanges`. Most parts of an operation fail *loudly*, that is, never with an absence.
When the store says that an object does not exist, a recursive deletion and the move of a directory
go on with the next object; only the deletion, the copy and the lookup of a single object pass the
absence on. On a sound store every fault is a known failure (`allowsChanges_sound`).
-/

set_option autoImplicit false

namespace BucketTree

/-- Metadata with a finite size have a status, or the fault of reading it is loud. -/
theorem Metadata.isLoud_of_status {key : Key} {metadata : Option Metadata} {fault : Fault}
    (hfinite : Metadata.isInfinite metadata = false)
    (h : Metadata.status key metadata = .error fault) : fault.IsLoud := by
  unfold Metadata.status at h
  rw [hfinite, if_neg Bool.false_ne_true] at h
  split at h
  next => cases h; exact Fault.isLoud_known rfl
  next => cases h; exact Fault.isLoud_known rfl
  next => cases h

/-- A loud fault is a known failure. -/
theorem Action.Raises.known {α : Type} {a : Action α} (h : a.Raises .sound Fault.IsLoud) :
    a.Raises .sound Fault.IsKnown :=
  h.mono fun _ => Fault.IsLoud.isKnown

/-! ## Queries -/

/-- The failure refuses a path. -/
def Failure.IsInvalidPath (failure : Failure) : Prop := failure.kind.failureClass = .invalidPath

/-- Every request is permitted, and `allows` holds for the faults that a query raises itself: those
of reading a status, and known failures that neither are absences nor refuse a path. -/
structure Contract.AllowsQueries (c : Contract) (allows : Fault → Prop) : Prop where
  permits : ∀ request, c.permits request
  status : ∀ key metadata fault, c.trusts (.head key) metadata →
    Metadata.status key metadata = .error fault → allows fault
  quiet : ∀ failure : Failure, failure.isNotFound = false → ¬ failure.IsInvalidPath →
    allows (.known failure)

/-- The key is not the root, or `allows` admits the refusal of the root. -/
def Key.Passes (allows : Fault → Prop) (key : Key) : Prop :=
  key ≠ Key.root ∨ ∀ refusal, allows (.known (.ofRefusal refusal))

section Passes

variable {c : Contract} {allows : Fault → Prop} {key : Key}

theorem raises_marker {suffix : String} (hkey : Key.Passes allows key) :
    (Action.ofPath (Key.marker suffix key)).Raises c allows := by
  obtain hroot | hrefusal := hkey
  · rw [Key.marker_eq hroot]
    exact Action.raises_pure _
  · exact Action.raises_ofPath fun refusal _ => hrefusal refusal

theorem Tree.raises_refuseRoot (hkey : Key.Passes allows key) (fault : PathFault) (path : Value) :
    (Tree.refuseRoot key fault path).Raises c allows := by
  unfold Tree.refuseRoot
  split
  next hroot =>
    obtain hother | hrefusal := hkey
    · exact absurd (beq_iff_eq.1 hroot) hother
    · exact Action.raises_fail (hrefusal _)
  · exact Action.raises_pure ()

end Passes

namespace Contract.AllowsQueries

variable {c : Contract} {allows : Fault → Prop}

theorem raises_statusOf (h : c.AllowsQueries allows) (key : Key) :
    (BucketTree.statusOf key).Raises c allows := by
  refine Action.raises_request_bind (h.permits _) fun outcome hanswer => ?_
  cases outcome with
  | error fault =>
      dsimp only
      split
      · exact Action.raises_pure none
      · exact Action.raises_fail (h.quiet _ rfl nofun)
  | ok metadata =>
      dsimp only
      split
      · exact Action.raises_pure _
      next hstatus =>
        exact Action.raises_throw (h.status key metadata _ (hanswer metadata rfl) hstatus)

theorem keeps_next (h : c.AllowsQueries allows) (l : Listing) :
    l.next.Keeps c fun r => ∀ fault, r.1 = .error fault → allows fault := by
  unfold Listing.next
  cases l.isDone with
  | true => exact Program.keeps_pure allows_of_ok
  | false =>
      refine (Program.keeps_isCancelled l.cancel).bind fun flag _ => ?_
      cases flag with
      | true =>
          refine Program.keeps_pure ?_
          rintro _ ⟨⟩
          exact h.quiet _ rfl nofun
      | false =>
          refine (Program.keeps_request (h.permits _)).bind fun outcome _ => ?_
          cases outcome with
          | error fault =>
              refine Program.keeps_pure ?_
              rintro _ ⟨⟩
              exact h.quiet _ rfl nofun
          | ok page =>
              dsimp only
              cases hchunk : l.chunkOf page with
              | ok chunk => exact Program.keeps_pure allows_of_ok
              | error failure =>
                  have hkind := Listing.kind_of_chunkOf hchunk
                  refine Program.keeps_pure ?_
                  rintro _ ⟨⟩
                  refine h.quiet failure (Failure.isNotFound_eq_false ?_) ?_
                  · rw [hkind]
                    exact nofun
                  · rw [Failure.IsInvalidPath, hkind]
                    exact nofun

theorem raises_first (h : c.AllowsQueries allows) (l : Listing) : l.first.Raises c allows := by
  refine Action.raises_lift_bind (h.keeps_next l) fun r hallowed => ?_
  obtain ⟨outcome, l'⟩ := r
  dsimp only
  split
  · exact Action.raises_throw (hallowed _ rfl)
  · exact Action.raises_pure _
  · exact Action.raises_pure _

/-- A walk with visits that raise allowed faults raises allowed faults. -/
theorem raises_walk (h : c.AllowsQueries allows) {ρ : Type} {visit : Chunk → Walk ρ Unit}
    (hvisit : ∀ chunk, (visit chunk).Raises c allows) (pages : Nat) (l : Listing) :
    (l.walk visit pages).Raises c allows := by
  induction pages generalizing l with
  | zero =>
      have hendless : (Program.endless : Program Unit).Keeps c (fun _ => True) :=
        Program.keeps_endless
      exact Recorded.raises_ofAction (Action.raises_lift hendless)
  | succ pages ih =>
      refine Recorded.raises_lift_bind (h.keeps_next l) fun r hallowed => ?_
      obtain ⟨outcome, l'⟩ := r
      dsimp only
      split
      · exact Recorded.raises_throw (hallowed _ rfl)
      · exact Recorded.raises_pure ()
      next chunk => exact (hvisit chunk).bind fun _ => ih l'

theorem raises_markerStatus (h : c.AllowsQueries allows) (suffix : String) (key : Key) :
    (Directory.markerStatus suffix key).Raises c allows := by
  unfold Directory.markerStatus
  split
  · exact Action.raises_pure none
  next hroot =>
    exact (raises_marker (Or.inl fun heq => hroot (beq_iff_eq.2 heq))).bind
      fun marker => h.raises_statusOf marker

theorem raises_hasChildren (h : c.AllowsQueries allows) (key : Key) (cancel : Option Token) :
    (Directory.hasChildren key cancel).Raises c allows :=
  (h.raises_first _).bind fun _ => Action.raises_pure _

theorem raises_exists? (h : c.AllowsQueries allows) (suffix : String) (key : Key) :
    (Directory.exists? suffix key).Raises c allows := by
  unfold Directory.exists?
  split
  · exact Action.raises_pure true
  · refine (h.raises_markerStatus suffix key).bind fun status => ?_
    split
    · exact Action.raises_pure true
    · exact h.raises_hasChildren key none

end Contract.AllowsQueries

/-! ## Changes -/

/-- In addition, `known` holds for the faults of a change. A change of a single object may raise any
known fault but a refusal of a path; a change of many objects passes over those that do not exist
and raises loud faults only. -/
structure Contract.AllowsChanges (c : Contract) (loud known : Fault → Prop) : Prop
    extends c.AllowsQueries loud where
  known_of_loud : ∀ fault, loud fault → known fault
  loud_of_known : ∀ fault, known fault →
    (∀ failure, fault = .known failure → failure.isNotFound = false) → loud fault
  known : ∀ failure : Failure, ¬ failure.IsInvalidPath → known (.known failure)

namespace Contract.AllowsChanges

variable {c : Contract} {loud known : Fault → Prop}

theorem weaken (h : c.AllowsChanges loud known) {α : Type} {a : Action α} (ha : a.Raises c loud) :
    a.Raises c known :=
  ha.mono h.known_of_loud

/-- A fault that is no known failure is loud. -/
theorem loud_of_ne (h : c.AllowsChanges loud known) {fault : Fault} (hknown : known fault)
    (hne : ∀ failure, fault = .known failure → False) : loud fault :=
  h.loud_of_known fault hknown fun failure heq => absurd heq (hne failure)

/-- A known failure other than `notFound` is loud. -/
theorem loud_of_found (h : c.AllowsChanges loud known) {failure : Failure}
    (hknown : known (.known failure)) (hfound : ¬ failure.isNotFound = true) :
    loud (.known failure) := by
  refine h.loud_of_known _ hknown ?_
  rintro _ ⟨⟩
  exact Bool.eq_false_iff.2 hfound

theorem raises_checkCancelled (h : c.AllowsChanges loud known) (cancel : Option Token)
    (context : Option String) : (Action.checkCancelled cancel context).Raises c loud :=
  Action.raises_checkCancelled (h.quiet _ rfl nofun)

/-! ### Deletion -/

section Deletion

variable (h : c.AllowsChanges loud known)

include h

theorem raises_deleteKey (key : Key) : (Tree.deleteKey key).Raises c known := by
  refine Action.raises_request_bind (h.permits _) fun outcome _ => ?_
  cases outcome with
  | ok _ => exact Action.raises_pure ()
  | error fault =>
      dsimp only
      split
      · exact Action.raises_fail (h.known _ nofun)
      · exact Action.raises_fail (h.known _ nofun)

/-- The program `deleteChild` passes over an object that does not exist, so its faults are loud. -/
theorem raises_deleteChild (key : Key) (cancel : Option Token) (child : Key) :
    (Tree.deleteChild key cancel child).Raises c loud := by
  refine (Recorded.raises_ofAction (h.raises_checkCancelled cancel _)).bind fun _ => ?_
  refine Recorded.raises_outcome_bind (h.raises_deleteKey child) fun r hknown => ?_
  split
  · exact Recorded.raises_modify _
  · split
    · exact Recorded.raises_pure ()
    next hfound => exact Recorded.raises_throw (h.loud_of_found (hknown _ rfl) hfound)
  next hne => exact Recorded.raises_throw (h.loud_of_ne (hknown _ rfl) hne)

theorem raises_deleteContents (t : Tree) (key : Key) (cancel : Option Token) :
    (t.deleteContents key cancel).Raises c loud := by
  refine (h.raises_walk (fun chunk => Recorded.raises_forM
    (h.raises_deleteChild key cancel)) _ _).collect_bind fun r hloud => ?_
  obtain ⟨outcome, deleted⟩ := r
  dsimp only
  split
  · exact Action.raises_pure deleted
  · split
    · exact Action.raises_fail (hloud _ rfl)
    · exact Action.raises_fail (h.quiet _ rfl nofun)
  · exact Action.raises_throw (hloud _ rfl)

/-- The program `deleteMarker` passes over a marker that does not exist, so its faults are loud. -/
theorem raises_deleteMarker (t : Tree) {key : Key} (hkey : Key.Passes loud key)
    (deleted : List Key) : (t.deleteMarker key deleted).Raises c loud := by
  refine (raises_marker hkey).bind fun marker => ?_
  refine (h.raises_deleteKey marker).outcome_bind fun r hknown => ?_
  split
  · exact Action.raises_pure ()
  · split
    · exact Action.raises_pure ()
    next hfound =>
      split
      · exact Action.raises_fail (h.loud_of_found (hknown _ rfl) hfound)
      · exact Action.raises_fail (h.quiet _ rfl nofun)
  next hne => exact Action.raises_throw (h.loud_of_ne (hknown _ rfl) hne)

end Deletion

/-! ### Renaming -/

section Renaming

variable (h : c.AllowsChanges loud known) (source destination : Key)

/-- The failure of a copy does not refuse a path. -/
theorem not_isInvalidPath_copyFailure (fault : Fault) :
    ¬ (Move.copyFailure source destination fault).IsInvalidPath := by
  unfold Move.copyFailure
  dsimp only
  split <;> exact nofun

include h

theorem raises_copyFailure {α : Type} (fault : Fault) :
    (Action.fail (Move.copyFailure source destination fault) : Action α).Raises c known :=
  Action.raises_fail (h.known _ (not_isInvalidPath_copyFailure source destination fault))

theorem raises_copyThrough : (Move.copyThrough source destination).Raises c known := by
  refine Action.raises_request_bind (h.permits _) fun outcome _ => ?_
  cases outcome with
  | error fault => exact h.raises_copyFailure source destination fault
  | ok body =>
      refine Action.raises_request_bind (h.permits _) fun outcome _ => ?_
      cases outcome with
      | error fault => exact h.raises_copyFailure source destination fault
      | ok _ => exact Action.raises_pure ()

theorem raises_copyObject : (Move.copyObject source destination).Raises c known := by
  refine Action.raises_request_bind (h.permits _) fun outcome _ => ?_
  cases outcome with
  | ok _ => exact Action.raises_pure ()
  | error fault =>
      dsimp only
      split
      · exact h.raises_copyThrough source destination
      · exact h.raises_copyFailure source destination fault

theorem raises_deleteSource : (Move.deleteSource source).Raises c loud := by
  refine Action.raises_request_bind (h.permits _) fun outcome _ => ?_
  cases outcome with
  | ok _ => exact Action.raises_pure ()
  | error fault =>
      dsimp only
      split
      · exact Action.raises_pure ()
      · exact Action.raises_fail (h.quiet _ rfl nofun)

theorem raises_file : (Move.file source destination).Raises c known := by
  refine (h.raises_copyObject source destination).bind fun _ => ?_
  refine (h.raises_deleteSource source).outcome_bind fun r hloud => ?_
  split
  · exact Action.raises_pure _
  · exact Action.raises_fail (h.known _ nofun)
  · exact Action.raises_throw (h.known_of_loud _ (hloud _ rfl))

/-- A step of a move passes over an object that does not exist, so its faults are loud. -/
theorem raises_step (key newKey : Key) :
    (Move.step source destination key newKey).Raises c loud := by
  refine Recorded.raises_outcome_bind (h.raises_copyObject key newKey) fun r hknown => ?_
  split
  · refine Recorded.raises_get_bind fun pairs => ?_
    split
    · exact Recorded.raises_pure ()
    next hfound =>
      split
      · exact Recorded.raises_throw (h.loud_of_found (hknown _ rfl) hfound)
      · exact Recorded.raises_throw (h.quiet _ rfl nofun)
  next hne => exact Recorded.raises_throw (h.loud_of_ne (hknown _ rfl) hne)
  · refine Recorded.raises_outcome_bind (h.raises_deleteSource key) fun r hloud => ?_
    split
    · exact Recorded.raises_get_bind fun pairs => Recorded.raises_throw (h.quiet _ rfl nofun)
    · exact Recorded.raises_throw (hloud _ rfl)
    · exact Recorded.raises_modify _

theorem raises_visit (cancel : Option Token) (key : Key) :
    (Move.visit source destination cancel key).Raises c loud :=
  (Recorded.raises_ofAction (h.raises_checkCancelled cancel _)).bind fun _ =>
    h.raises_step source destination key _

variable {source destination}

theorem raises_markerStep (hsource : Key.Passes loud source)
    (hdestination : Key.Passes loud destination) (suffix : String) :
    (Move.markerStep suffix source destination).Raises c loud := by
  refine (Recorded.raises_ofAction (h.raises_markerStatus suffix source)).bind fun status => ?_
  split
  · refine (Recorded.raises_ofAction (raises_marker hsource)).bind fun marker => ?_
    refine (Recorded.raises_ofAction (raises_marker hdestination)).bind fun newMarker => ?_
    exact h.raises_step source destination marker newMarker
  · exact Recorded.raises_pure ()

theorem raises_contents (hsource : Key.Passes loud source)
    (hdestination : Key.Passes loud destination) (settings : Settings) (pageLimit : Nat)
    (cancel : Option Token) :
    (Move.contents settings pageLimit source destination cancel).Raises c loud := by
  refine (h.raises_walk (fun chunk => Recorded.raises_forM
    (h.raises_visit source destination cancel)) pageLimit _).bind fun _ => ?_
  refine (Recorded.raises_ofAction (h.raises_checkCancelled cancel _)).bind fun _ => ?_
  exact h.raises_markerStep hsource hdestination settings.folderSuffix

theorem raises_directory (hsource : Key.Passes loud source)
    (hdestination : Key.Passes loud destination) (settings : Settings) (pageLimit : Nat)
    (cancel : Option Token) :
    (Move.directory settings pageLimit source destination cancel).Raises c loud := by
  refine (h.raises_contents hsource hdestination settings pageLimit cancel).collect_bind
    fun r hloud => ?_
  obtain ⟨outcome, pairs⟩ := r
  dsimp only
  split
  · exact Action.raises_pure _
  · split
    · exact Action.raises_fail (h.quiet _ rfl nofun)
    · exact Action.raises_fail (hloud _ rfl)
  · exact Action.raises_throw (hloud _ rfl)

end Renaming

end Contract.AllowsChanges

/-! ## Whole requests -/

namespace Tree

variable {t : Tree} {path : Value} {key : Key}

/-- An action on a refused path throws the refusal. -/
theorem key_bind_of_refused {α : Type} {fault : Fault} (h : t.resolve path = .error fault)
    (f : Key → Action α) : (t.key path >>= f) = throw fault := by
  unfold Tree.key
  rw [h]
  rfl

theorem key_bind_of_resolved {α : Type} (h : t.resolve path = .ok key) (f : Key → Action α) :
    (t.key path >>= f) = f key := by
  unfold Tree.key
  rw [h]
  rfl

/-- The predicate `allows` admits the fault of resolving the path. -/
def AllowsPath (t : Tree) (allows : Fault → Prop) (path : Value) : Prop :=
  ∀ fault, t.resolve path = .error fault → allows fault

/-- The predicate `allows` admits the fault of resolving the path, and the refusal of the root if
the path names it. -/
structure AllowsOther (t : Tree) (allows : Fault → Prop) (path : Value) : Prop where
  refusal : t.AllowsPath allows path
  passes : ∀ key, t.resolve path = .ok key → Key.Passes allows key

/-- The predicate `allows` admits the refusals of both ends of a rename. -/
structure AllowsEnds (t : Tree) (allows : Fault → Prop) (source destination : Value) : Prop where
  first : t.AllowsPath allows source
  second : t.AllowsPath allows destination
  refusal : ∀ sourceKey destinationKey, t.resolve source = .ok sourceKey →
    t.resolve destination = .ok destinationKey → ∀ refusal,
    checkEnds source destination sourceKey destinationKey = .error refusal →
    allows (.known (.ofRefusal refusal))
  passes : ∀ key, t.resolve source = .ok key ∨ t.resolve destination = .ok key →
    Key.Passes allows key

/-- The predicate `allows` admits the refusals of all paths in `leads`, a set that contains the path
of the parent with each of its paths. -/
structure AllowsWay (t : Tree) (allows : Fault → Prop) (leads : Value → Prop) : Prop where
  refusal : ∀ path, leads path → t.AllowsPath allows path
  parent : ∀ path key parent, leads path → t.resolve path = .ok key → key ≠ Key.root →
    Key.parent? key = some parent → parent ≠ Key.root → leads (Key.toPath parent)

theorem AllowsPath.raises_bind {c : Contract} {allows : Fault → Prop} {α : Type}
    (hpath : t.AllowsPath allows path) {f : Key → Action α}
    (hf : ∀ key, t.resolve path = .ok key → (f key).Raises c allows) :
    (t.key path >>= f).Raises c allows := by
  cases hresolve : t.resolve path with
  | error fault =>
      rw [key_bind_of_refused hresolve]
      exact Action.raises_throw (hpath fault hresolve)
  | ok key =>
      rw [key_bind_of_resolved hresolve]
      exact hf key hresolve

theorem AllowsOther.raises_bind {c : Contract} {allows : Fault → Prop} {α : Type}
    (hpath : t.AllowsOther allows path) {refused : PathFault} {f : Key → Action α}
    (hf : ∀ key, Key.Passes allows key → (f key).Raises c allows) :
    (t.key path >>= fun key => refuseRoot key refused path >>= fun _ => f key).Raises c allows :=
  hpath.refusal.raises_bind fun key hresolve =>
    (raises_refuseRoot (hpath.passes key hresolve) refused path).bind fun _ =>
      hf key (hpath.passes key hresolve)

theorem AllowsPath.mono {allows more : Fault → Prop} (h : t.AllowsPath allows path)
    (hmore : ∀ fault, allows fault → more fault) : t.AllowsPath more path :=
  fun fault hfault => hmore fault (h fault hfault)

theorem AllowsOther.mono {allows more : Fault → Prop} (h : t.AllowsOther allows path)
    (hmore : ∀ fault, allows fault → more fault) : t.AllowsOther more path :=
  ⟨h.refusal.mono hmore, fun key hkey =>
    (h.passes key hkey).imp_right fun hrefusal refusal => hmore _ (hrefusal refusal)⟩

end Tree

namespace Contract.AllowsQueries

variable {c : Contract} {allows : Fault → Prop} (h : c.AllowsQueries allows) {t : Tree}
  {path : Value} (hpath : t.AllowsPath allows path)

include h hpath

theorem raises_isFile : (t.isFile path).Raises c allows := by
  refine hpath.raises_bind fun key _ => ?_
  split
  · exact Action.raises_pure false
  · exact (h.raises_statusOf key).bind fun _ => Action.raises_pure _

theorem raises_isDirectory : (t.isDirectory path).Raises c allows :=
  hpath.raises_bind fun key _ => h.raises_exists? t.suffix key

theorem raises_existsAt : (t.exists? path).Raises c allows := by
  refine (h.raises_isFile hpath).bind fun isFile => ?_
  split
  · exact Action.raises_pure true
  · exact h.raises_isDirectory hpath

theorem raises_isTaken (mayReplace : Bool) : (t.isTaken path mayReplace).Raises c allows := by
  refine (h.raises_isFile hpath).bind fun isFile => ?_
  split
  · exact Action.raises_pure _
  · exact h.raises_isDirectory hpath

end Contract.AllowsQueries

namespace Contract.AllowsChanges

variable {c : Contract} {loud known : Fault → Prop} (h : c.AllowsChanges loud known) {t : Tree}
  {path : Value}

include h

theorem raises_status (hpath : t.AllowsPath loud path) : (t.status path).Raises c known := by
  refine (hpath.mono h.known_of_loud).raises_bind fun key _ => ?_
  split
  · exact Action.raises_pure _
  · refine (h.weaken (h.raises_statusOf key)).bind fun object => ?_
    split
    · exact Action.raises_pure _
    · refine (h.weaken (h.raises_markerStatus t.suffix key)).bind fun marker => ?_
      split
      · exact Action.raises_pure _
      · refine (h.weaken (h.raises_hasChildren key none)).bind fun hasChildren => ?_
        split
        · exact Action.raises_pure _
        · exact Action.raises_fail (h.known _ nofun)

theorem raises_list (hpath : t.AllowsPath loud path) (isRecursive : Bool) (cancel : Option Token) :
    (t.list path isRecursive cancel).Raises c known := by
  have hpath := hpath.mono h.known_of_loud
  refine hpath.raises_bind fun key _ => ?_
  refine (hpath.raises_bind fun _ _ => Action.raises_pure _).bind fun listing => ?_
  refine (h.raises_walk (fun chunk => Recorded.raises_modify _) _ listing).collect_bind
    fun r hloud => ?_
  obtain ⟨fault | _, entries⟩ := r
  · exact Action.raises_throw (h.known_of_loud _ (hloud _ rfl))
  · dsimp only
    split
    · refine (h.weaken (h.raises_markerStatus t.suffix key)).bind fun marker => ?_
      split
      · refine Action.raises_fail_bind (h.known _ ?_) _
        exact nofun
      · exact Action.raises_pure _
    · exact Action.raises_pure _

theorem raises_delete (hpath : t.AllowsOther loud path) (isRecursive : Bool)
    (cancel : Option Token) : (t.delete path isRecursive cancel).Raises c known := by
  refine (hpath.refusal.mono h.known_of_loud).raises_bind fun key hresolve => ?_
  have hkey := hpath.passes key hresolve
  refine (h.weaken (Tree.raises_refuseRoot hkey _ path)).bind fun _ => ?_
  refine (h.weaken (h.raises_statusOf key)).bind fun object => ?_
  split
  · exact h.raises_deleteKey key
  · refine (h.weaken (h.raises_markerStatus t.suffix key)).bind fun marker => ?_
    refine (h.weaken (h.raises_hasChildren key cancel)).bind fun hasChildren => ?_
    have hcontents := h.weaken (h.raises_deleteContents t key cancel)
    have hmarker := fun deleted => h.weaken (h.raises_deleteMarker t hkey deleted)
    split
    · exact Action.raises_fail (h.known _ nofun)
    · split
      · exact Action.raises_fail (h.known _ nofun)
      · split
        · split
          · exact hcontents.bind hmarker
          · exact hmarker []
        · split
          · exact hcontents.bind fun _ => Action.raises_pure ()
          · exact Action.raises_pure ()

theorem raises_rename {source destination : Value} (hends : t.AllowsEnds loud source destination)
    (cancel : Option Token) (overwrite : Bool) :
    (t.rename source destination cancel overwrite).Raises c known := by
  refine (hends.first.mono h.known_of_loud).raises_bind fun sourceKey hsource => ?_
  refine (hends.second.mono h.known_of_loud).raises_bind fun destinationKey hdestination => ?_
  have hrefusal := hends.refusal sourceKey destinationKey hsource hdestination
  refine (h.weaken (Action.raises_ofPath hrefusal)).bind fun _ => ?_
  refine (h.weaken (h.raises_statusOf sourceKey)).bind fun object => ?_
  refine (h.weaken (h.raises_isTaken hends.second _)).bind fun isTaken => ?_
  split
  · exact Action.raises_fail (h.known _ nofun)
  · split
    · exact h.raises_file sourceKey destinationKey
    · refine (h.weaken (h.raises_exists? t.suffix sourceKey)).bind fun isDirectory => ?_
      split
      · exact h.weaken (h.raises_directory (hends.passes sourceKey (Or.inl hsource))
          (hends.passes destinationKey (Or.inr hdestination)) t.settings t.pageLimit cancel)
      · exact Action.raises_fail (h.known _ nofun)

theorem raises_createMarker {key : Key} (hkey : Key.Passes loud key) (suffix : String) :
    (Directory.createMarker suffix key).Raises c loud := by
  refine (raises_marker hkey).bind fun marker => ?_
  refine Action.raises_request_bind (h.permits _) fun outcome _ => ?_
  cases outcome with
  | ok _ => exact Action.raises_pure ()
  | error fault => exact Action.raises_fail (h.quiet _ rfl nofun)

/-- Only a call that makes missing parents may exceed the limit on nested calls. -/
theorem raises_makeDirectory {leads : Value → Prop} (hway : t.AllowsWay loud leads)
    (hpath : leads path) (calls : Nat) (createParents : Bool)
    (hdeep : createParents = true → known (.misuse .tooDeep)) :
    (t.makeDirectory (calls + 1) path createParents).Raises c known := by
  induction calls using Nat.strongRecOn generalizing path createParents with
  | ind calls ih =>
      have hmakeParent : ∀ above, leads above → createParents = true →
          (t.makeDirectory calls above true).Raises c known := by
        intro above habove hparents
        cases calls with
        | zero => exact Action.raises_throw (hdeep hparents)
        | succ calls => exact ih calls (Nat.lt_succ_self _) habove true fun _ => hdeep hparents
      refine ((hway.refusal path hpath).mono h.known_of_loud).raises_bind fun key hresolve => ?_
      have hexists := fun key => h.weaken (h.raises_exists? t.suffix key)
      split
      · exact Action.raises_pure false
      next hroot =>
        have hroot : key ≠ Key.root := fun heq => hroot (beq_iff_eq.2 heq)
        have hmake : (do
            Directory.createMarker t.suffix key
            return true : Action Bool).Raises c known :=
          (h.weaken (h.raises_createMarker (Or.inl hroot) t.suffix)).bind
            fun _ => Action.raises_pure true
        refine (h.weaken (h.raises_statusOf key)).bind fun object => ?_
        dsimp only
        split
        · refine Action.raises_fail_bind (h.known _ ?_) _
          exact nofun
        · refine (hexists key).bind fun isThere => ?_
          split
          · exact Action.raises_pure false
          · split
            · exact hmake
            next parent hparent =>
              split
              next hup =>
                have hleads := hway.parent path key parent hpath hresolve hroot hparent
                  (bne_iff_ne.1 hup)
                refine (hexists parent).bind fun isThere => ?_
                split
                · exact hmake
                · split
                  · refine Action.raises_fail_bind (h.known _ ?_) _
                    exact nofun
                  next hparents =>
                    have hparents : createParents = true := by simpa using hparents
                    exact (hmakeParent _ hleads hparents).discard.bind fun _ => hmake
              · exact hmake

theorem raises_openForRead (hpath : t.AllowsOther loud path) {offset : Value}
    (hoffset : offset.isBelow 0 = .ok false) : (t.openForRead path offset).Raises c known := by
  unfold Tree.openForRead
  rw [hoffset]
  refine (hpath.mono h.known_of_loud).raises_bind fun key _ => ?_
  refine Action.raises_request_bind (h.permits _) fun outcome _ => ?_
  cases outcome with
  | ok stream => exact Action.raises_pure _
  | error fault =>
      dsimp only
      split
      · exact Action.raises_fail (h.known _ nofun)
      · exact Action.raises_fail (h.known _ nofun)

end Contract.AllowsChanges

theorem Tree.AllowsOther.raises_openForWrite {c : Contract} {allows : Fault → Prop} {t : Tree}
    {path : Value} (hpath : t.AllowsOther allows path) (data : Bytes) :
    (t.openForWrite path data).Raises c allows :=
  hpath.raises_bind fun _ _ => Action.raises_pure _

/-! ## Sound stores -/

/-- On a sound store, a change raises known failures only, and a change of many objects raises loud
ones only. -/
theorem allowsChanges_sound : Contract.sound.AllowsChanges Fault.IsLoud Fault.IsKnown where
  permits _ := trivial
  status _ _ _ hfinite h := Metadata.isLoud_of_status hfinite h
  quiet _ h _ := Fault.isLoud_known h
  known_of_loud _ := Fault.IsLoud.isKnown
  loud_of_known := by
    rintro _ ⟨failure, rfl⟩ hfound
    exact Fault.isLoud_known (hfound failure rfl)
  known failure _ := Fault.isKnown_known failure

/-- The refusal of the root is loud. -/
theorem Key.passes_isLoud (key : Key) : Key.Passes Fault.IsLoud key :=
  Or.inr fun _ => Fault.isLoud_known rfl

namespace Tree

/-- With a text as root address, a path fails to resolve because the tree is closed, or it is
refused. -/
theorem resolve_eq_error {t : Tree} {root : String} (hroot : t.settings.rootUri = .text root)
    {path : Value} {fault : Fault} (h : t.resolve path = .error fault) :
    (t.isOpen = false ∧ fault.IsLoud) ∨ ∃ refusal, fault = .known (.ofRefusal refusal) := by
  unfold resolve at h
  split at h
  next hclosed =>
    cases h
    exact Or.inl ⟨by simpa using hclosed, Fault.isLoud_known rfl⟩
  next =>
    rw [hroot, Address.segments_text] at h
    split at h
    next hsegments =>
      cases h
      cases hparts : Path.segments path root with
      | ok parts => rw [hparts] at hsegments; cases hsegments
      | error refusal =>
          rw [hparts] at hsegments
          cases hsegments
          exact Or.inr ⟨refusal, rfl⟩
    next =>
      split at h
      · cases h
        exact Or.inr ⟨_, rfl⟩
      · cases h

section Requests

variable {t : Tree} {root : String} (hroot : t.settings.rootUri = .text root)

include hroot in
theorem allowsPath_isLoud (path : Value) : t.AllowsPath Fault.IsLoud path := by
  intro fault hfault
  obtain ⟨-, hloud⟩ | ⟨refusal, rfl⟩ := resolve_eq_error hroot hfault
  · exact hloud
  · exact Fault.isLoud_known rfl

include hroot in
theorem allowsOther_isLoud (path : Value) : t.AllowsOther Fault.IsLoud path :=
  ⟨allowsPath_isLoud hroot path, fun key _ => key.passes_isLoud⟩

include hroot in
theorem allowsEnds_isLoud (source destination : Value) :
    t.AllowsEnds Fault.IsLoud source destination :=
  ⟨allowsPath_isLoud hroot source, allowsPath_isLoud hroot destination,
    fun _ _ _ _ _ _ => Fault.isLoud_known rfl, fun key _ => key.passes_isLoud⟩

include hroot in
theorem allowsWay_isLoud : t.AllowsWay Fault.IsLoud fun _ => True :=
  ⟨fun path _ => allowsPath_isLoud hroot path, fun _ _ _ _ _ _ _ _ => trivial⟩

/-! ## Open files -/

/-- Opening a file gives a sound reader. -/
theorem keeps_openForRead_sound (t : Tree) (path : Value) (offset : Int) :
    (t.openForRead path (.int offset)).Keeps .sound Reader.IsSound :=
  (keeps_openForRead (fun _ _ => trivial) t path (.int offset)).mono
    fun _ ⟨hoffset, hstream⟩ => ⟨⟨offset, hoffset⟩, hstream⟩

include hroot in
/-- Reading a file raises known failures only, unless the requested size does not fit into
memory. -/
theorem raises_readOnce (path : Value) {offset size : Int} (hoffset : 0 ≤ offset)
    (hsize : -1 ≤ size) : (t.readOnce path (.int offset) size).Raises .sound
      (Fault.IsKnownUnless (Word.memoryLimit ≤ size)) := by
  have hstart : (Value.int offset).isBelow 0 = .ok false := by
    rw [Value.isBelow_int, decide_eq_false (Int.not_lt.2 hoffset)]
  refine ((allowsChanges_sound.raises_openForRead (allowsOther_isLoud hroot path) hstart).mono
    fun _ => Fault.IsKnown.unless).keeps_bind (keeps_openForRead_sound t path offset)
    fun reader hsound => ?_
  obtain ⟨hread, hfault⟩ := hsound.read hsize
  dsimp only
  rw [hread.close]
  exact (Action.raises_pure ()).bind fun _ => Action.raises_ofExcept hfault

/-- A read returns at most the requested number of bytes. -/
theorem keeps_readOnce_length (t : Tree) (path offset : Value) (size : Nat) :
    (t.readOnce path offset size).Keeps .sound (fun bytes => bytes.length ≤ size) := by
  refine (keeps_openForRead (fun _ _ => trivial) t path offset).bind fun reader _ => ?_
  rcases hread : reader.read size with ⟨outcome, reader'⟩
  have hclose : (Action.ofExcept reader'.close.1).Keeps .sound fun _ => True :=
    Action.keeps_ofExcept fun _ _ => trivial
  refine hclose.bind fun _ _ => Action.keeps_ofExcept fun bytes hbytes => ?_
  exact Reader.length_le_of_read ((congrArg Prod.fst hread).trans hbytes)

theorem keeps_openForWrite_start (t : Tree) (path : Value) (data : Bytes) :
    (t.openForWrite path data).Keeps .sound
      (fun w => ∃ key, w = .start key data Writer.defaultSpoolSize) :=
  (keeps_key t path).bind fun key _ => (keeps_refuseRoot key _ path).bind fun _ _ =>
    Action.keeps_pure ⟨key, rfl⟩

include hroot in
/-- Storing a file raises known failures only, unless the data do not fit into memory. -/
theorem raises_storeFile (path : Value) (data : Bytes) : (t.storeFile path data).Raises .sound
    (Fault.IsKnownUnless (Word.memoryLimit ≤ data.length)) := by
  refine Action.Raises.keeps_bind
    (((allowsOther_isLoud hroot path).raises_openForWrite data).known.mono
      fun _ => Fault.IsKnown.unless)
    (keeps_openForWrite_start t path data) ?_
  rintro _ ⟨key, rfl⟩
  refine Action.raises_lift_bind (Writer.keeps_close_faults _) fun r hfault => ?_
  refine Action.raises_ofExcept fun fault hr => (hfault fault hr).mono fun hfailed => ?_
  by_contra hroom
  exact hfailed (Writer.holds_start key (Writer.start_of_room _ (Int.not_le.1 hroom))).2

end Requests

end Tree

end BucketTree
