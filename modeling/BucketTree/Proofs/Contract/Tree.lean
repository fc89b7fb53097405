import BucketTree.Proofs.Contract.Permissions
import BucketTree.Proofs.Move.Steps
import BucketTree.Proofs.Tree.Paths
import BucketTree.Tree.Entries
import BucketTree.Tree.Removal

/-!
# A tree under a contract

The queries of a tree keep every contract that permits reads. A deletion keeps a contract that
permits the removal at the key of its path, and a rename one that permits the move: every other key
that they touch is shown by a page below that key, or is its marker.
-/

set_option autoImplicit false

namespace BucketTree

variable {c : Contract} (hread : c.PermitsReading)

include hread in
theorem keeps_statusOf (key : Key) : (statusOf key).Keeps c (fun _ => True) := by
  refine (Action.keeps_request (hread (.head key) rfl)).bind fun outcome _ => ?_
  cases outcome with
  | ok metadata =>
      dsimp only
      split
      · exact Action.keeps_pure trivial
      · exact Action.keeps_throw _
  | error fault =>
      dsimp only
      split
      · exact Action.keeps_pure trivial
      · exact Action.keeps_fail _

/-! ## Listings -/

namespace Listing

/-- The keys of a chunk are shown by a page of the listing. -/
theorem shows_of_chunkOf {l : Listing} {page : Option Page} {chunk : Chunk}
    (hpage : c.trusts (.list l.pageRequest) page) (h : l.chunkOf page = .ok chunk) :
    ∀ key ∈ chunk.keys, c.Shows (l.under.getD "") key := by
  unfold chunkOf at h
  split at h
  next keys groups next =>
    split at h
    · cases h
    · cases h
      exact fun key hkey => ⟨l.pageRequest, _, keys, rfl, hpage, rfl, hkey⟩
  next => cases h

include hread in
theorem keeps_next (l : Listing) : l.next.Keeps c fun r =>
    r.2.under = l.under ∧ ∀ chunk, r.1 = .ok (some chunk) →
      ∀ key ∈ chunk.keys, c.Shows (l.under.getD "") key := by
  unfold next
  cases hdone : l.isDone with
  | true => exact Program.keeps_pure ⟨rfl, nofun⟩
  | false =>
      refine (Program.keeps_isCancelled l.cancel).bind fun flag _ => ?_
      cases flag with
      | true => exact Program.keeps_pure ⟨rfl, nofun⟩
      | false =>
          refine (Program.keeps_request (hread (.list l.pageRequest) rfl)).bind
            fun outcome htrusts => ?_
          cases outcome with
          | error fault => exact Program.keeps_pure ⟨rfl, nofun⟩
          | ok page =>
              dsimp only
              cases hchunk : l.chunkOf page with
              | error failure => exact Program.keeps_pure ⟨rfl, nofun⟩
              | ok chunk =>
                  refine Program.keeps_pure ⟨rfl, ?_⟩
                  rintro _ ⟨⟩
                  exact shows_of_chunkOf (htrusts page rfl) hchunk

include hread in
/-- A walk keeps the contract if its visits do, for chunks of keys that a page may show. -/
theorem keeps_walk {ρ : Type} {inv : ρ → Prop} {visit : Chunk → Walk ρ Unit} {under : Option String}
    (hvisit : ∀ chunk, (∀ key ∈ chunk.keys, c.Shows (under.getD "") key) →
      (visit chunk).Keeps c inv (fun _ => True)) :
    ∀ (pages : Nat) (l : Listing), l.under = under →
      (l.walk visit pages).Keeps c inv (fun _ => True) := by
  intro pages
  induction pages with
  | zero => exact fun l _ => Recorded.keeps_ofAction (Action.keeps_lift Program.keeps_endless)
  | succ pages ih =>
      intro l hunder
      refine (Recorded.keeps_ofAction (Action.keeps_lift (keeps_next hread l))).bind
        fun r hnext => ?_
      -- the rest of the listing is below the same text, so the induction goes on with it
      obtain ⟨outcome, l'⟩ := r
      obtain ⟨hsame, hchunk⟩ := hnext
      rw [hunder] at hsame hchunk
      dsimp only
      split
      · exact Recorded.keeps_throw _
      · exact Recorded.keeps_pure trivial
      next chunk => exact (hvisit chunk (hchunk chunk rfl)).bind fun _ _ => ih l' hsame

include hread in
theorem keeps_first (l : Listing) : l.first.Keeps c (fun _ => True) := by
  refine (Action.keeps_lift (keeps_next hread l)).bind fun r _ => ?_
  split
  · exact Action.keeps_throw _
  · exact Action.keeps_pure trivial
  · exact Action.keeps_pure trivial

end Listing

/-! ## Queries -/

namespace Directory

include hread in
theorem keeps_markerStatus (suffix : String) (key : Key) :
    (markerStatus suffix key).Keeps c (fun _ => True) := by
  unfold markerStatus
  split
  · exact Action.keeps_pure trivial
  · refine (Action.keeps_ofPath fun _ _ => trivial).bind fun marker _ => ?_
    exact keeps_statusOf hread marker

include hread in
theorem keeps_hasChildren (key : Key) (cancel : Option Token) :
    (hasChildren key cancel).Keeps c (fun _ => True) :=
  (Listing.keeps_first hread _).bind fun _ _ => Action.keeps_pure trivial

include hread in
theorem keeps_exists? (suffix : String) (key : Key) :
    (exists? suffix key).Keeps c (fun _ => True) := by
  unfold exists?
  split
  · exact Action.keeps_pure trivial
  · refine (keeps_markerStatus hread suffix key).bind fun status _ => ?_
    split
    · exact Action.keeps_pure trivial
    · exact keeps_hasChildren hread key none

end Directory

namespace Tree

variable (t : Tree) (path : Value)

theorem keeps_key : (t.key path).Keeps c (fun key => t.resolve path = .ok key) :=
  Action.keeps_ofExcept fun _ h => h

theorem keeps_refuseRoot (key : Key) (fault : PathFault) (path : Value) :
    (refuseRoot key fault path).Keeps c (fun _ => key ≠ Key.root) := by
  unfold refuseRoot
  split
  · exact Action.keeps_fail _
  next hroot => exact Action.keeps_pure fun heq => hroot (beq_iff_eq.2 heq)

include hread in
theorem keeps_isFile : (t.isFile path).Keeps c (fun _ => True) := by
  refine (keeps_key t path).bind fun key _ => ?_
  split
  · exact Action.keeps_pure trivial
  · exact (keeps_statusOf hread key).bind fun _ _ => Action.keeps_pure trivial

include hread in
theorem keeps_isDirectory : (t.isDirectory path).Keeps c (fun _ => True) :=
  (keeps_key t path).bind fun key _ => Directory.keeps_exists? hread t.suffix key

include hread in
theorem keeps_exists? : (t.exists? path).Keeps c (fun _ => True) := by
  refine (keeps_isFile hread t path).bind fun isFile _ => ?_
  split
  · exact Action.keeps_pure trivial
  · exact keeps_isDirectory hread t path

include hread in
theorem keeps_status : (t.status path).Keeps c (fun _ => True) := by
  refine (keeps_key t path).bind fun key _ => ?_
  split
  · exact Action.keeps_pure trivial
  · refine (keeps_statusOf hread key).bind fun object _ => ?_
    cases object with
    | some object => exact Action.keeps_pure trivial
    | none =>
        refine (Directory.keeps_markerStatus hread t.suffix key).bind fun marker _ => ?_
        cases marker with
        | some marker => exact Action.keeps_pure trivial
        | none =>
            refine (Directory.keeps_hasChildren hread key none).bind fun hasChildren _ => ?_
            split
            · exact Action.keeps_pure trivial
            · exact Action.keeps_fail _

theorem keeps_listing (isRecursive : Bool) (cancel : Option Token) :
    (t.listing path isRecursive cancel).Keeps c (fun _ => True) :=
  (keeps_key t path).bind fun _ _ => Action.keeps_pure trivial

include hread in
theorem keeps_list (isRecursive : Bool) (cancel : Option Token) :
    (t.list path isRecursive cancel).Keeps c (fun _ => True) := by
  refine (keeps_key t path).bind fun key _ => ?_
  refine (keeps_listing t path isRecursive cancel).bind fun listing _ => ?_
  refine Action.Keeps.bind (Recorded.keeps_collect (Listing.keeps_walk hread
    (fun _ _ => Recorded.keeps_modify fun _ _ => trivial) _ listing rfl)) fun r _ => ?_
  obtain ⟨outcome, entries⟩ := r
  cases outcome with
  | error fault => exact Action.keeps_throw fault
  | ok _ =>
      dsimp only
      split
      · refine (Directory.keeps_markerStatus hread t.suffix key).bind fun marker _ => ?_
        split
        · exact Action.keeps_fail_bind _ _
        · exact Action.keeps_pure trivial
      · exact Action.keeps_pure trivial

/-! ## Deletion -/

theorem keeps_deleteKey {key : Key} (hdelete : c.permits (.delete key)) :
    (deleteKey key).Keeps c (fun _ => True) := by
  refine (Action.keeps_request hdelete).bind fun outcome _ => ?_
  cases outcome with
  | ok _ => exact Action.keeps_pure trivial
  | error fault =>
      dsimp only
      split
      · exact Action.keeps_fail _
      · exact Action.keeps_fail _

theorem keeps_deleteChild {child : Key} (hdelete : c.permits (.delete child)) (key : Key)
    (cancel : Option Token) :
    (deleteChild key cancel child).Keeps c (fun _ => True) (fun _ => True) := by
  refine (Recorded.keeps_ofAction (Action.keeps_checkCancelled _ _)).bind fun _ _ => ?_
  refine (Recorded.keeps_ofAction (keeps_deleteKey hdelete).outcome).bind fun outcome _ => ?_
  split
  · exact Recorded.keeps_modify fun _ _ => trivial
  · split
    · exact Recorded.keeps_pure trivial
    · exact Recorded.keeps_throw _
  · exact Recorded.keeps_throw _

include hread in
theorem keeps_deleteContents {key : Key} (cancel : Option Token)
    (hremoval : c.PermitsRemoval t.suffix key) :
    (t.deleteContents key cancel).Keeps c (fun _ => True) := by
  refine Action.Keeps.bind (Recorded.keeps_collect (Listing.keeps_walk hread (fun chunk hchunk =>
    Recorded.keeps_forM fun child hchild => ?_) _ _ rfl)) fun r _ => ?_
  · -- the listing was asked for what is below the key, so every key that it serves is
    exact keeps_deleteChild (hremoval.below child (hchunk child hchild)) key cancel
  · obtain ⟨outcome, deleted⟩ := r
    dsimp only
    split
    · exact Action.keeps_pure trivial
    · split
      · exact Action.keeps_fail _
      · exact Action.keeps_fail _
    · exact Action.keeps_throw _

theorem keeps_deleteMarker {key : Key} (hremoval : c.PermitsRemoval t.suffix key)
    (deleted : List Key) : (t.deleteMarker key deleted).Keeps c (fun _ => True) := by
  have hmarker : ∀ marker, Key.marker t.suffix key = .ok marker → c.permits (.delete marker) := by
    intro marker hmarker
    unfold Key.marker at hmarker
    split at hmarker
    · cases hmarker
    · cases hmarker
      exact hremoval.marker
  refine Action.Keeps.bind (Action.keeps_ofPath hmarker) fun marker hmarker => ?_
  refine (keeps_deleteKey hmarker).outcome.bind fun outcome _ => ?_
  split
  · exact Action.keeps_pure trivial
  · split
    · exact Action.keeps_pure trivial
    · split
      · exact Action.keeps_fail _
      · exact Action.keeps_fail _
  · exact Action.keeps_throw _

include hread in
theorem keeps_delete (isRecursive : Bool) (cancel : Option Token)
    (hdelete : c.PermitsDelete t path) :
    (t.delete path isRecursive cancel).Keeps c (fun _ => True) := by
  refine (keeps_key t path).bind fun key hkey => ?_
  refine (keeps_refuseRoot key _ path).bind fun _ hroot => ?_
  have hremoval := hdelete key hkey hroot
  refine (keeps_statusOf hread key).bind fun object _ => ?_
  split
  · exact keeps_deleteKey hremoval.file
  · refine (Directory.keeps_markerStatus hread t.suffix key).bind fun marker _ => ?_
    refine (Directory.keeps_hasChildren hread key cancel).bind fun hasChildren _ => ?_
    have hcontents := keeps_deleteContents hread t cancel hremoval
    split
    · exact Action.keeps_fail _
    · split
      · exact Action.keeps_fail _
      · split
        · split
          · exact hcontents.bind fun deleted _ => keeps_deleteMarker t hremoval deleted
          · exact keeps_deleteMarker t hremoval []
        · split
          · exact hcontents.bind fun _ _ => Action.keeps_pure trivial
          · exact Action.keeps_pure trivial

end Tree

/-! ## Renaming -/

namespace Move

variable {source destination key newKey : Key}

include hread in
theorem keeps_copyThrough (hmove : c.PermitsMove source destination) :
    (copyThrough source destination).Keeps c (fun _ => True) := by
  refine (Action.keeps_request (hread (.get source) rfl)).bind fun outcome htrusts => ?_
  cases outcome with
  | error fault => exact Action.keeps_fail _
  | ok body =>
      have hput := hmove.put body (htrusts body rfl)
      refine Action.Keeps.bind (Action.keeps_request hput) fun outcome _ => ?_
      cases outcome with
      | ok _ => exact Action.keeps_pure trivial
      | error fault => exact Action.keeps_fail _

include hread in
theorem keeps_copyObject (hmove : c.PermitsMove source destination) :
    (copyObject source destination).Keeps c (fun _ => True) := by
  refine Action.Keeps.bind (Action.keeps_request hmove.copy) fun outcome _ => ?_
  cases outcome with
  | ok _ => exact Action.keeps_pure trivial
  | error fault =>
      dsimp only
      split
      · exact keeps_copyThrough hread hmove
      · exact Action.keeps_fail _

theorem keeps_deleteSource (hdelete : c.permits (.delete source)) :
    (deleteSource source).Keeps c (fun _ => True) := by
  refine (Action.keeps_request hdelete).bind fun outcome _ => ?_
  cases outcome with
  | ok _ => exact Action.keeps_pure trivial
  | error fault =>
      dsimp only
      split
      · exact Action.keeps_pure trivial
      · exact Action.keeps_fail _

include hread in
theorem keeps_file (hmove : c.PermitsMove source destination) :
    (file source destination).Keeps c (fun _ => True) := by
  refine (keeps_copyObject hread hmove).bind fun _ _ => ?_
  refine (keeps_deleteSource hmove.delete).outcome.bind fun outcome _ => ?_
  split
  · exact Action.keeps_pure trivial
  · exact Action.keeps_fail _
  · exact Action.keeps_throw _

include hread in
theorem keeps_step (source destination : Key) (hmove : c.PermitsMove key newKey) :
    (step source destination key newKey).Keeps c (fun _ => True) (fun _ => True) := by
  have hcopy := keeps_copyObject hread hmove
  refine (Recorded.keeps_ofAction hcopy.outcome).bind fun outcome _ => ?_
  split
  · refine Recorded.keeps_get.bind fun pairs _ => ?_
    split
    · exact Recorded.keeps_pure trivial
    · split
      · exact Recorded.keeps_throw _
      · exact Recorded.keeps_throw _
  · exact Recorded.keeps_throw _
  · have hdelete := keeps_deleteSource hmove.delete
    refine (Recorded.keeps_ofAction hdelete.outcome).bind fun outcome _ => ?_
    split
    · exact Recorded.keeps_get.bind fun _ _ => Recorded.keeps_throw _
    · exact Recorded.keeps_throw _
    · exact Recorded.keeps_modify fun _ _ => trivial

include hread in
theorem keeps_visit (cancel : Option Token)
    (hmove : c.PermitsMove key (Move.newKey source destination key)) :
    (visit source destination cancel key).Keeps c (fun _ => True) (fun _ => True) :=
  (Recorded.keeps_ofAction (Action.keeps_checkCancelled _ _)).bind fun _ _ =>
    keeps_step hread source destination hmove

variable (hsource : source ≠ Key.root) (hdestination : destination ≠ Key.root)

include hread hsource hdestination in
theorem keeps_markerStep {suffix : String}
    (hmove : c.PermitsMove (source ++ suffix) (destination ++ suffix)) :
    (markerStep suffix source destination).Keeps c (fun _ => True) (fun _ => True) := by
  have hmarker := Directory.keeps_markerStatus hread suffix source
  refine (Recorded.keeps_ofAction hmarker).bind fun status _ => ?_
  split
  · rw [Key.marker_eq hsource, Key.marker_eq hdestination]
    exact keeps_step hread source destination hmove
  · exact Recorded.keeps_pure trivial

include hread hsource hdestination in
theorem keeps_contents {settings : Settings} (pageLimit : Nat) (cancel : Option Token)
    (hrename : c.PermitsRename settings.folderSuffix source destination) :
    (contents settings pageLimit source destination cancel).Keeps c (fun _ => True)
      (fun _ => True) := by
  refine Recorded.Keeps.bind (Listing.keeps_walk hread (fun chunk hchunk => Recorded.keeps_forM
    fun key hkey => ?_) _ _ rfl) fun _ _ => ?_
  · exact keeps_visit hread cancel (hrename.below key (hchunk key hkey))
  · refine (Recorded.keeps_ofAction (Action.keeps_checkCancelled _ _)).bind fun _ _ => ?_
    exact keeps_markerStep hread hsource hdestination hrename.marker

include hread hsource hdestination in
theorem keeps_directory {settings : Settings} (pageLimit : Nat) (cancel : Option Token)
    (hrename : c.PermitsRename settings.folderSuffix source destination) :
    (directory settings pageLimit source destination cancel).Keeps c (fun _ => True) := by
  refine Action.Keeps.bind (Recorded.keeps_collect
    (keeps_contents hread hsource hdestination pageLimit cancel hrename)) fun r _ => ?_
  obtain ⟨outcome, pairs⟩ := r
  dsimp only
  split
  · exact Action.keeps_pure trivial
  · split
    · exact Action.keeps_fail _
    · exact Action.keeps_fail _
  · exact Action.keeps_throw _

end Move

namespace Tree

variable (t : Tree)

include hread in
theorem keeps_isTaken (path : Value) (mayReplace : Bool) :
    (t.isTaken path mayReplace).Keeps c (fun _ => True) := by
  refine (keeps_isFile hread t path).bind fun isFile _ => ?_
  split
  · exact Action.keeps_pure trivial
  · exact keeps_isDirectory hread t path

/-- Neither end of a valid rename is the root. -/
theorem ne_root_of_checkEnds {source destination : Value} {sourceKey destinationKey : Key}
    (h : checkEnds source destination sourceKey destinationKey = .ok ()) :
    sourceKey ≠ Key.root ∧ destinationKey ≠ Key.root := by
  unfold checkEnds at h
  split at h
  · cases h
  next hroot =>
    rw [Bool.or_eq_true, not_or, beq_iff_eq, beq_iff_eq] at hroot
    exact hroot

include hread in
theorem keeps_rename {source destination : Value} (cancel : Option Token) (overwrite : Bool)
    (hrenaming : c.PermitsRenaming t source destination) :
    (t.rename source destination cancel overwrite).Keeps c (fun _ => True) := by
  refine (keeps_key t source).bind fun sourceKey hsource => ?_
  refine (keeps_key t destination).bind fun destinationKey hdestination => ?_
  refine Action.Keeps.bind (Action.keeps_ofPath fun _ => ne_root_of_checkEnds) fun _ hends => ?_
  have hrename := hrenaming sourceKey destinationKey hsource hdestination hends.1 hends.2
  refine (keeps_statusOf hread sourceKey).bind fun object _ => ?_
  refine (keeps_isTaken hread t destination _).bind fun isTaken _ => ?_
  split
  · exact Action.keeps_fail _
  · split
    · exact Move.keeps_file hread hrename.file
    · refine (Directory.keeps_exists? hread t.suffix sourceKey).bind fun isDirectory _ => ?_
      split
      · exact Move.keeps_directory hread hends.1 hends.2 t.pageLimit cancel hrename
      · exact Action.keeps_fail _

end Tree

end BucketTree
