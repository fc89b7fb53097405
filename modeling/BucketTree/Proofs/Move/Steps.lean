import BucketTree.Proofs.Move.Progress
import BucketTree.Proofs.Tree.Queries
import BucketTree.Tree.Move

/-!
# Steps of a move

The steps are the copy of an object, the deletion of its source, and both together for one object of
a directory. A copy stores the content of the source at the new key, or it fails and changes
nothing; a deletion that fails leaves the source. The failures of these steps have classes of their
own, so a `partialMove` report comes from the move itself only.
-/

set_option autoImplicit false

namespace BucketTree

/-- The requests of a copy: a copy by the store, or a read and a write. -/
def Request.IsCopy (source destination : Key) : Request → Prop
  | .copy a b => a = source ∧ b = destination
  | .get a => a = source
  | .put b _ => b = destination
  | _ => False

/-- The faults of a store that does not support copies and fails nothing else. -/
def unsupportedCopies : Request → Fault → Prop
  | .copy _ _, fault => fault.isUnsupported = true
  | _, _ => False

theorem loud_unsupportedCopies : Loud unsupportedCopies := by
  intro request fault h
  cases request with
  | copy source destination =>
      cases fault with
      | unsupported argument => rfl
      | _ => cases h
  | _ => exact h.elim

/-- When at most copies are unsupported, a query without a token does not fail. -/
theorem not_queryMayFail_unsupportedCopies {pageSize : Value} :
    ¬ QueryMayFail unsupportedCopies pageSize none := by
  rintro (⟨key, fault, hhead⟩ | hcancel | ⟨request, fault, -, hlist⟩)
  · exact hhead
  · exact hcancel rfl
  · exact hlist

namespace Move

/-- A move may fail: some request fails otherwise than by an unsupported copy. -/
def MayFail (fails : Request → Fault → Prop) : Prop :=
  ∃ request fault, fails request fault ∧ ¬ unsupportedCopies request fault

theorem not_mayFail_unsupportedCopies : ¬ MayFail unsupportedCopies := by
  rintro ⟨request, fault, hfails, hnot⟩
  exact hnot hfails

variable {fails : Request → Fault → Prop} {sends : Request → Bucket → Prop}
  {b : Bucket} {source destination key newKey : Key}

theorem copyFailure_of_loud {fault : Fault} (hloud : fault.isAbsence = false) :
    (copyFailure source destination fault).kind = .copy (some destination) := by
  unfold copyFailure
  dsimp only
  rw [Fault.toFailure_isNotFound, hloud]
  rfl

/-- The new key of a key below the source lies below the destination. -/
theorem newKey_below (hsource : source ≠ Key.root) (hdestination : destination ≠ Key.root)
    (rest : String) : Move.newKey source destination (source ++ "/" ++ rest) =
      destination ++ "/" ++ rest := by
  unfold newKey
  rw [Key.directoryPrefix_eq hsource, Key.directoryPrefix_eq hdestination, Text.dropFirst_append]

/-- The bytes received of an upload from a body are all bytes of the body. -/
theorem received_ofBody {body : Body} {content : Bytes}
    (h : (Upload.ofBody body).received = .ok content) : body.bytes = content := by
  cases h
  exact (Sparse.bytes_ofBytes body.bytes).symm

/-- The program `copyObject` stores the content of the source at the new key, or it fails and
changes nothing. -/
theorem ensures_copyObject (hloud : Loud fails) {post : Option (Except Fault Unit) → Bucket → Prop}
    (hsend : ∀ q : Request, q.IsCopy source destination → sends q b)
    (hpresent : b.contents source ≠ none)
    (hdone : ∀ b', b'.contents = halfway b.contents source destination →
      post (some (.ok ())) b')
    (hfail : ∀ failure, failure.kind = .copy (some destination) → MayFail fails →
      post (some (.error (.known failure))) b) :
    (copyObject source destination).Ensures (Bucket.environment fails) sends post b := by
  refine Action.ensures_bind (Action.ensures_request (hsend _ ⟨rfl, rfl⟩) ?_)
  intro outcome b' hanswer
  cases hanswer with
  | @failed _ _ fault hfault =>
      show Action.Ensures _ _ _
        (if fault.isUnsupported then copyThrough source destination else _) b
      split
      next =>
        -- the store does not copy: the object is read and written
        refine Action.ensures_bind (Action.ensures_request (hsend _ rfl) ?_)
        intro outcome b' hanswer
        cases hanswer with
        | failed hfault =>
            exact hfail _ (copyFailure_of_loud (hloud _ _ hfault)) ⟨_, _, hfault, id⟩
        | absent hneeds hkey =>
            cases hneeds
            exact absurd (Bucket.contents_eq_none.2 hkey) hpresent
        | get hkey =>
            refine Action.ensures_bind (Action.ensures_request (hsend _ rfl) ?_)
            intro outcome b' hanswer
            cases hanswer with
            | failed hfault =>
                exact hfail _ (copyFailure_of_loud (hloud _ _ hfault)) ⟨_, _, hfault, id⟩
            | absent hneeds _ => cases hneeds
            | put hcontent hstored =>
                apply hdone _
                unfold halfway
                rw [hstored, Bucket.contents_of_find? hkey, ← received_ofBody hcontent]
                rfl
      next hother =>
        exact hfail _ (copyFailure_of_loud (hloud _ _ hfault)) ⟨_, _, hfault, hother⟩
  | absent hneeds hkey =>
      cases hneeds
      exact absurd (Bucket.contents_eq_none.2 hkey) hpresent
  | copy hkey hstored =>
      apply hdone _
      unfold halfway
      rw [hstored, Bucket.contents_of_find? hkey]

/-- The program `deleteSource` deletes the object, or it fails and the object stays. -/
theorem ensures_deleteSource (hloud : Loud fails)
    {post : Option (Except Fault Unit) → Bucket → Prop} (hsend : sends (.delete source) b)
    (hpresent : b.contents source ≠ none)
    (hdone : ∀ b', b'.contents = Function.update b.contents source none → post (some (.ok ())) b')
    (hfail : ∀ failure, failure.kind = .delete → MayFail fails →
      post (some (.error (.known failure))) b) :
    (deleteSource source).Ensures (Bucket.environment fails) sends post b := by
  refine Action.ensures_bind (Action.ensures_request hsend ?_)
  intro outcome b' hanswer
  cases hanswer with
  | failed hfault =>
      show Action.Ensures _ _ _ (if (Fault.toFailure _ _ _).isNotFound then _ else _) b
      rw [Fault.toFailure_isNotFound, hloud _ _ hfault, if_neg Bool.false_ne_true]
      exact hfail _ rfl ⟨_, _, hfault, id⟩
  | absent hneeds hkey =>
      cases hneeds
      exact absurd (Bucket.contents_eq_none.2 hkey) hpresent
  | delete hkey herased => exact hdone _ herased

/-- The program `file` moves an object to its new key. A failure before the copy is stored changes
nothing, and a failure after it reports the copy. -/
theorem ensures_file (hloud : Loud fails) {post : Option (Except Fault Moved) → Bucket → Prop}
    (hne : source ≠ destination) (hpresent : b.contents source ≠ none)
    (hcopy : ∀ q : Request, q.IsCopy source destination → sends q b)
    (hdelete : ∀ b', b'.contents = halfway b.contents source destination →
      sends (.delete source) b')
    (hdone : ∀ b', b'.contents = movedTo b.contents source destination →
      post (some (.ok ⟨source, destination, [(source, destination)]⟩)) b')
    (hcopyFailed : ∀ failure, MayFail fails → failure.kind = .copy (some destination) →
      post (some (.error (.known failure))) b)
    (hdeleteFailed : ∀ b' failure, MayFail fails →
      b'.contents = halfway b.contents source destination → failure.kind =
        .partialMove ⟨some destination, [], some source, true, true⟩ →
      post (some (.error (.known failure))) b') :
    (file source destination).Ensures (Bucket.environment fails) sends post b := by
  refine Action.ensures_bind (ensures_copyObject hloud hcopy hpresent ?_ fun failure hkind hmay =>
    hcopyFailed failure hmay hkind)
  intro b₁ hb₁
  have hthere : b₁.contents source ≠ none := by
    rw [hb₁, halfway_source hne]
    exact hpresent
  refine Action.ensures_bind (Action.ensures_outcome
    (ensures_deleteSource hloud (hdelete b₁ hb₁) hthere ?_ ?_))
  · intro b₂ hb₂
    apply hdone b₂
    rw [hb₂, hb₁]
    rfl
  · intro failure _ hmay
    exact hdeleteFailed b₁ _ hmay hb₁ rfl

/-- The program `step` moves an object of a directory to its new key and records the pair. A failure
before the copy is stored reports the objects moved before, if any, and changes nothing; a failure
after it reports the copy as well. -/
theorem ensures_step (hloud : Loud fails) {record : List (Key × Key)}
    {done : List (Key × Key) → Bucket → Prop} {stop : Fault → List (Key × Key) → Bucket → Prop}
    {endless : Bucket → Prop} (hne : key ≠ newKey) (hpresent : b.contents key ≠ none)
    (hcopy : ∀ q : Request, q.IsCopy key newKey → sends q b)
    (hdelete : ∀ b', b'.contents = halfway b.contents key newKey → sends (.delete key) b')
    (hdone : ∀ b', b'.contents = movedTo b.contents key newKey →
      done (record ++ [(key, newKey)]) b')
    (hcopyFailed : ∀ failure, MayFail fails →
      (if record.isEmpty then failure.kind = .copy (some newKey)
        else failure.kind = .partialMove ⟨some destination, record, some key, true, false⟩) →
      stop (.known failure) record b)
    (hdeleteFailed : ∀ b' failure, MayFail fails → b'.contents = halfway b.contents key newKey →
      failure.kind = .partialMove ⟨some destination, record, some key, true, true⟩ →
      stop (.known failure) record b') :
    (step source destination key newKey).Ensures (Bucket.environment fails) sends
      (Walk.Ends (fun _ => done) stop endless) record b := by
  refine Walk.ensures_bind (Walk.ensures_ofAction (Action.ensures_outcome
    (ensures_copyObject hloud hcopy hpresent ?_ ?_)))
  · intro b₁ hb₁
    have hthere : b₁.contents key ≠ none := by
      rw [hb₁, halfway_source hne]
      exact hpresent
    refine Walk.ensures_bind (Walk.ensures_ofAction (Action.ensures_outcome
      (ensures_deleteSource hloud (hdelete b₁ hb₁) hthere ?_ ?_)))
    · intro b₂ hb₂
      refine Walk.ensures_modify (hdone b₂ ?_)
      rw [hb₂, hb₁]
      rfl
    · intro failure _ hmay
      exact Walk.ensures_bind (Walk.ensures_get (hdeleteFailed b₁ _ hmay hb₁ rfl))
  · intro failure hkind hmay
    refine Walk.ensures_bind (Walk.ensures_get ?_)
    -- no fault is an absence, so the object is not skipped as one that has vanished
    have hfound := Failure.isNotFound_eq_false (f := failure) (by rw [hkind]; exact nofun)
    show Walk.Ensures _ _ _ (if failure.isNotFound then _ else _) record b
    rw [hfound, if_neg Bool.false_ne_true]
    split
    next hempty =>
      refine Walk.ensures_throw (hcopyFailed failure hmay ?_)
      rw [if_pos hempty]
      exact hkind
    next hmoved =>
      refine Walk.ensures_throw (hcopyFailed _ hmay ?_)
      rw [if_neg hmoved]
      rfl

end Move

end BucketTree
