import BucketTree.Proofs.Store.Cancellation
import BucketTree.Proofs.Tree.Removal

/-!
# Cancelled deletions

A recursive deletion checks its token before each page and before each object below the directory.
It does not check it before the marker, nor before the object of a file. `HeedsToken` states what
this means when the token is set during one of the requests, and `delete_cancelled` shows it for
every recursive deletion. The invariant of the loop is `Cancellable`: at most the last request was
sent with the token set, so the next check stops the loop before any further request.
-/

set_option autoImplicit false

namespace BucketTree

/-- The deletion was cancelled: it deleted nothing, or it reports exactly the deleted keys. -/
def EndsCancelled (before after : Contents) (outcome : Except Fault Unit) : Prop :=
  (∃ context, outcome = .error (.known (.cancelled context)) ∧ after = before) ∨
    ∃ fault report, outcome = .error fault ∧ fault.removalReport? = some report ∧
      report.failedKey = none ∧ report.Accounts before after

/-- The guarantees of a recursive deletion whose token is set during the request `call`; `since` are
the requests after it. -/
structure HeedsToken (suffix : String) (key : Key) (before after : Contents) (call : Request)
    (since : List Request) (outcome : Except Fault Unit) : Prop where
  /-- After `call`, the only deletions are that of the object of a file whose status was just read,
  and that of the marker of a directory with nothing left below it. -/
  deletes : ∀ other, .delete other ∈ since →
    (other = key ∧ before key ≠ none ∧ call = .head key) ∨
      (other = key ++ suffix ∧ before key = none ∧ ∀ rest, after (key ++ "/" ++ rest) = none)
  /-- These two deletions do come, since no check precedes them. -/
  file_deleted : before key ≠ none → call = .head key → .delete key ∈ since ∧ outcome = .ok ()
  marker_deleted : before key = none → before (key ++ suffix) ≠ none →
    (∀ rest, after (key ++ "/" ++ rest) = none) → (∀ k, call ≠ .head k) →
    call ≠ .delete (key ++ suffix) → .delete (key ++ suffix) ∈ since ∧ outcome = .ok ()
  /-- If something of the directory is left, the deletion ends as a cancelled one. -/
  left : before key = none → Directory.IsAt suffix key after → EndsCancelled before after outcome

namespace HeedsToken

variable {suffix : String} {key : Key} {before after : Contents} {call : Request}
  {since : List Request} {outcome : Except Fault Unit}

/-- The predicate `HeedsToken` for a deletion that stopped at a check, either before it listed the
children or with something left below the directory. -/
theorem of_stopped (hfile : before key = none) (hsince : ∀ k, .delete k ∉ since)
    (hleft : (∃ k, call = .head k) ∨ ∃ rest, after (key ++ "/" ++ rest) ≠ none)
    (hend : EndsCancelled before after outcome) :
    HeedsToken suffix key before after call since outcome where
  deletes := fun other hother => absurd hother (hsince other)
  file_deleted := fun hpresent => absurd hfile hpresent
  marker_deleted := by
    intro _ _ hbelow hcall _
    rcases hleft with ⟨k, rfl⟩ | ⟨rest, hrest⟩
    · exact absurd rfl (hcall k)
    · exact absurd (hbelow rest) hrest
  left := fun _ _ => hend

/-- The predicate `HeedsToken` for a deletion after which nothing of the directory is left. -/
theorem of_gone (hroot : key ≠ Key.root) (hfile : before key = none)
    (hgone : DirectoryGone suffix key before after)
    (hsince : ∀ k, .delete k ∈ since → k = key ++ suffix)
    (hmarker : before (key ++ suffix) ≠ none → call ≠ .delete (key ++ suffix) →
      .delete (key ++ suffix) ∈ since ∧ outcome = .ok ()) :
    HeedsToken suffix key before after call since outcome where
  deletes := fun other hother => Or.inr ⟨hsince other hother, hfile, hgone.below_gone⟩
  file_deleted := fun hpresent => absurd hfile hpresent
  marker_deleted := fun _ hthere _ _ hcall => hmarker hthere hcall
  left := fun _ hleft => absurd hleft (hgone.not_isAt hroot)

/-- The predicate `HeedsToken` for the deletion of a file, which sends `delete` right after
`head`. -/
theorem of_file (hfile : before key ≠ none)
    (hsince : (call = .head key ∧ since = [.delete key]) ∨ (call = .delete key ∧ since = [])) :
    HeedsToken suffix key before after call since (.ok ()) where
  deletes := by
    intro other hother
    rcases hsince with ⟨rfl, rfl⟩ | ⟨-, rfl⟩
    · cases List.mem_singleton.1 hother
      exact Or.inl ⟨rfl, hfile, rfl⟩
    · cases hother
  file_deleted := by
    rintro - rfl
    rcases hsince with ⟨-, rfl⟩ | ⟨hcall, -⟩
    · exact ⟨List.mem_singleton.2 rfl, rfl⟩
    · cases hcall
  marker_deleted := fun hnone => absurd hnone hfile
  left := fun hnone => absurd hnone hfile

end HeedsToken

/-- The loop invariant when the token is set during the request after the first `n` ones: that
request is the last one sent, if it was sent at all. -/
structure Cancellable (n : Nat) (under : String) (b₀ : Bucket) (left deleted : List Key)
    (w : Traced Bucket) : Prop extends Erasing under b₀ left deleted w.state where
  quiet : w.sent.length ≤ n + 1

namespace Tree

/-- The loop was stopped by a check, with keys left and with the deleted keys not reported yet. -/
def StopsCancelled (n : Nat) (under : String) (b₀ : Bucket) (fault : Fault) (deleted : List Key)
    (w : Traced Bucket) : Prop :=
  (∃ context, fault = .known (.cancelled context)) ∧
    ∃ left, left ≠ [] ∧ Cancellable n under b₀ left deleted w

/-- If the request after the first `n` ones was sent, the deletion ends as `HeedsToken` says for
it. -/
def EndsHeeding (t : Tree) (path : Value) (n : Nat) (b₀ : Bucket)
    (r : Option (Except Fault Unit)) (w : Traced Bucket) : Prop :=
  ∀ call, w.sent[n]? = some call → ∃ key outcome, t.resolve path = .ok key ∧ r = some outcome ∧
    HeedsToken t.suffix key b₀.contents w.state.contents call (w.sent.drop (n + 1)) outcome

variable {t : Tree} {path : Value} {key : Key} {token : Token} {n : Nat} {b₀ : Bucket}
  {w : Traced Bucket}

/-- Without faults, `deleteKey` deletes an existing object by a single request. -/
theorem ensures_deleteKey_traced {post : Option (Except Fault Unit) → Traced Bucket → Prop}
    (hpresent : w.state.contents key ≠ none)
    (hdone : ∀ b', b'.contents = Function.update w.state.contents key none →
      post (some (.ok ())) ⟨b', w.sent ++ [.delete key]⟩) :
    (deleteKey key).Ensures (Bucket.cancelling noFaults token n) (fun _ _ => True) post w := by
  refine Action.ensures_bind (Action.ensures_request (q := .delete key) trivial ?_)
  rintro outcome ⟨b', sent⟩ ⟨hanswer, rfl⟩
  cases hanswer with
  | failed hfault => exact hfault.elim
  | absent hneeds hkey =>
      cases hneeds
      exact absurd (Bucket.contents_eq_none.2 hkey) hpresent
  | delete hkey herased => exact hdone _ herased

/-- One round of the loop deletes the first key that is left, unless the token is set. -/
theorem ensures_deleteChild_traced {under : String} {child : Key} {left deleted : List Key}
    (h : Cancellable n under b₀ (child :: left) deleted w) :
    (deleteChild key (some token) child).Ensures (Bucket.cancelling noFaults token n)
      (fun _ _ => True)
      (Walk.Ends (fun _ => Cancellable n under b₀ left) (StopsCancelled n under b₀)
        fun _ => False) deleted w := by
  refine Walk.ensures_bind (Walk.ensures_ofAction (Action.ensures_checkCancelled_traced ?_ ?_))
  · intro hunset
    refine Walk.ensures_bind (Walk.ensures_ofAction (Action.ensures_outcome
      (ensures_deleteKey_traced h.present ?_)))
    intro b' herased
    refine Walk.ensures_modify ⟨h.erase herased, ?_⟩
    have hsent := Nat.not_lt.1 (of_decide_eq_false hunset)
    rw [List.length_append]
    exact Nat.add_le_add_right hsent 1
  · intro _
    exact ⟨⟨_, rfl⟩, child :: left, List.cons_ne_nil _ _, h⟩

/-- The program `deleteContents` deletes every object below the directory, or it stops with some
left. -/
theorem ensures_deleteContents_traced (hroot : key ≠ Key.root)
    {post : Option (Except Fault (List Key)) → Traced Bucket → Prop}
    (hbelow : b₀.keysUnder (key ++ "/") ≠ [])
    (hpages : (b₀.keysUnder (key ++ "/")).length + 2 ≤ t.pageLimit)
    (hstart : Cancellable n (key ++ "/") b₀ (b₀.keysUnder (key ++ "/")) [] w)
    (hdone : ∀ w, Cancellable n (key ++ "/") b₀ [] (b₀.keysUnder (key ++ "/")) w →
      post (some (.ok (b₀.keysUnder (key ++ "/")))) w)
    (hstop : ∀ fault w, w.sent.length ≤ n + 1 →
      (∃ rest, w.state.contents (key ++ "/" ++ rest) ≠ none) →
      EndsCancelled b₀.contents w.state.contents (.error fault) → post (some (.error fault)) w) :
    (t.deleteContents key (some token)).Ensures (Bucket.cancelling noFaults token n)
      (fun _ _ => True) post w := by
  unfold deleteContents
  rw [Key.directoryPrefix_eq hroot]
  have hwalk : ((Listing.start (some (key ++ "/")) true t.settings.chunkLength (some token)).walk
      (fun chunk => chunk.keys.forM (deleteChild key (some token))) t.pageLimit).Ensures
      (Bucket.cancelling noFaults token n) (fun _ _ => True)
      (Walk.Ends (fun _ => Cancellable n (key ++ "/") b₀ []) (StopsCancelled n (key ++ "/") b₀)
        fun _ => False) [] w := by
    refine Listing.ensures_walk_keys (fun w => w.state) ?_ ?_ ?_ ?_ hstart
    · intro left deleted w h
      exact h.keysUnder_eq
    · -- a page is asked for while keys are left, since there were some at first
      intro l left deleted w _ hcancel hopen h hsome hnames
      refine Listing.ensures_next_traced hopen hcancel hnames trivial (fun _ h => h) ?_ ?_
      · intro hunset
        refine ⟨h.toErasing, ?_⟩
        have hsent := Nat.not_lt.1 (of_decide_eq_false hunset)
        rw [List.length_append]
        exact Nat.add_le_add_right hsent 1
      · intro _
        exact ⟨⟨_, rfl⟩, left, fun hnil => hbelow (hsome hnil), h⟩
    · intro child left deleted w h
      exact ensures_deleteChild_traced h
    · intro hfew
      exact absurd hpages (Nat.not_le.2 hfew)
  refine Action.ensures_bind (Walk.ensures_collect (hwalk.mono ?_))
  rintro (_ | ⟨fault | _, deleted⟩) w hend
  · exact hend.elim
  · -- a key that is left is still below the directory
    obtain ⟨⟨context, rfl⟩, left, hleft, h⟩ := hend
    obtain ⟨child, rest, rfl⟩ := List.exists_cons_of_ne_nil hleft
    have hchild : child ∈ w.state.keysUnder (key ++ "/") := by
      rw [h.keysUnder_eq]
      exact List.mem_cons_self
    obtain ⟨hpresent, rest, rfl⟩ := Bucket.mem_keysUnder.1 hchild
    show Action.Ensures _ _ _ (if deleted.isEmpty then _ else _) w
    split
    next hnone =>
      refine hstop _ w h.quiet ⟨rest, hpresent⟩ (Or.inl ⟨context, rfl, ?_⟩)
      rw [h.contents_eq, List.isEmpty_iff.1 hnone, Contents.without_nil]
    next hsome =>
      have haccounts : RemovalReport.Accounts ⟨deleted, none⟩ b₀.contents w.state.contents :=
        ⟨fun hnil => hsome (List.isEmpty_iff.2 hnil), h.was_present, h.contents_eq, nofun⟩
      exact hstop _ w h.quiet ⟨rest, hpresent⟩ (Or.inr ⟨_, _, rfl, rfl, rfl, haccounts⟩)
  · have hkeys := hend.keys_eq
    rw [List.append_nil] at hkeys
    obtain rfl := hkeys.symm
    exact hdone w hend

/-- The last step of a deletion deletes the marker, if there is one, without a check. -/
theorem ensures_deleteLast_traced (token : Token) (hresolve : t.resolve path = .ok key)
    (hroot : key ≠ Key.root) (hfile : b₀.contents key = none)
    (h : Cancellable n (key ++ "/") b₀ [] (b₀.keysUnder (key ++ "/")) w) :
    (if ((b₀.find? (key ++ t.suffix)).map StoredObject.status).isSome
      then t.deleteMarker key (b₀.keysUnder (key ++ "/")) else pure ()).Ensures
      (Bucket.cancelling noFaults token n) (fun _ _ => True) (t.EndsHeeding path n b₀) w := by
  cases hmarker : b₀.find? (key ++ t.suffix) with
  | none =>
      intro call hcall
      refine ⟨key, .ok (), hresolve, rfl, .of_gone hroot hfile ?_ ?_ ?_⟩
      · rw [h.contents_eq]
        exact .of_below (Bucket.contents_eq_none.2 hmarker)
      · exact fun k hk => absurd hk (not_mem_since h.quiet _)
      · intro hthere
        exact absurd (Bucket.contents_eq_none.2 hmarker) hthere
  | some object =>
      -- the marker is not below its directory, so the loop has left it
      have hthere : w.state.contents (key ++ t.suffix) ≠ none := by
        have hnot : key ++ t.suffix ∉ b₀.keysUnder (key ++ "/") := by
          intro hmem
          obtain ⟨-, rest, hrest⟩ := Bucket.mem_keysUnder.1 hmem
          exact Key.below_ne_marker t.settings.separator_not_mem key rest hrest.symm
        rw [h.contents_eq, Contents.without_of_not_mem hnot, Bucket.contents_of_find? hmarker]
        exact Option.some_ne_none _
      show (t.deleteMarker key (b₀.keysUnder (key ++ "/"))).Ensures _ _ _ w
      unfold deleteMarker
      rw [Key.marker_eq hroot]
      refine Action.ensures_bind (Action.ensures_pure ?_)
      refine Action.ensures_bind (Action.ensures_outcome (ensures_deleteKey_traced hthere ?_))
      intro b' herased call hcall
      have hgone : DirectoryGone t.suffix key b₀.contents b'.contents := by
        rw [herased, h.contents_eq, Contents.update_without]
        exact .of_marker
      refine ⟨key, .ok (), hresolve, rfl, ?_⟩
      rcases call_or_since h.quiet hcall with ⟨rfl, hsince⟩ | ⟨-, hsince⟩
      · rw [hsince]
        exact .of_gone hroot hfile hgone (fun k hk => absurd hk List.not_mem_nil)
          fun _ hother => absurd rfl hother
      · -- the token was set during the last request before the marker
        rw [hsince]
        refine .of_gone hroot hfile hgone ?_ fun _ _ => ⟨List.mem_singleton.2 rfl, rfl⟩
        intro k hk
        cases List.mem_singleton.1 hk
        rfl

/-- The operation `hasChildren` asks for the children unless the token is set already. -/
theorem ensures_hasChildren_cancelled {sent : List Request}
    {post : Option (Except Fault Bool) → Traced Bucket → Prop}
    (hyes : (∃ rest, b₀.contents (Key.directoryPrefix key ++ rest) ≠ none) →
      ∀ request, sent.length ≤ n → post (some (.ok true)) ⟨b₀, sent ++ [.list request]⟩)
    (hno : (∀ rest, b₀.contents (Key.directoryPrefix key ++ rest) = none) →
      ∀ request, sent.length ≤ n → post (some (.ok false)) ⟨b₀, sent ++ [.list request]⟩)
    (hstop : ∀ context, n < sent.length →
      post (some (.error (.known (.cancelled context)))) ⟨b₀, sent⟩) :
    (Directory.hasChildren key (some token)).Ensures (Bucket.cancelling noFaults token n)
      (fun _ _ => True) post ⟨b₀, sent⟩ := by
  have hnext : (Listing.start (Key.directoryPrefix key) false (.int 1) (some token)).next.Ensures
      (Bucket.cancelling noFaults token n) (fun _ _ => True)
      (Listing.Serves (Listing.start (Key.directoryPrefix key) false (.int 1) (some token))
        (b₀.servedNames (Key.directoryPrefix key) Key.separatorText)
        (fun w => sent.length ≤ n ∧ ∃ request, w = ⟨b₀, sent ++ [.list request]⟩)
        fun fault w => n < sent.length ∧ w = ⟨b₀, sent⟩ ∧
          ∃ context, fault = .known (.cancelled context)) ⟨b₀, sent⟩ := by
    refine Listing.ensures_next_traced rfl rfl rfl trivial (fun _ h => h) ?_ ?_
    · intro hunset
      exact ⟨Nat.not_lt.1 (of_decide_eq_false hunset), _, rfl⟩
    · intro hset
      exact ⟨of_decide_eq_true hset, rfl, _, rfl⟩
  refine Directory.ensures_hasChildren_serves hnext ?_ ?_ ?_
  · rintro hbelow _ ⟨hunset, request, rfl⟩
    exact hyes hbelow request hunset
  · rintro hbelow _ ⟨hunset, request, rfl⟩
    exact hno hbelow request hunset
  · rintro _ _ ⟨hset, rfl, context, rfl⟩
    exact hstop context hset

/-- The object of a file is deleted right after its status is read, without a check. -/
theorem ensures_deleteFile_traced (token : Token) (hresolve : t.resolve path = .ok key)
    (hfile : b₀.contents key ≠ none) :
    (deleteKey key).Ensures (Bucket.cancelling noFaults token n) (fun _ _ => True)
      (t.EndsHeeding path n b₀) ⟨b₀, [.head key]⟩ := by
  refine ensures_deleteKey_traced hfile ?_
  intro b' _ call hcall
  refine ⟨key, .ok (), hresolve, rfl, .of_file hfile ?_⟩
  rcases call_or_since (Nat.le_add_left 1 n) hcall with ⟨rfl, hsince⟩ | ⟨hhead, hsince⟩
  · exact Or.inr ⟨rfl, hsince⟩
  · exact Or.inl ⟨List.mem_singleton.1 (List.mem_of_getElem? hhead), hsince⟩

/-- A directory with children is emptied, and then its marker is deleted. -/
theorem ensures_deleteFull_traced (hresolve : t.resolve path = .ok key) (hroot : key ≠ Key.root)
    (hfile : b₀.contents key = none) {rest : String}
    (hrest : b₀.contents (key ++ "/" ++ rest) ≠ none)
    (hpages : b₀.keys.length + 2 ≤ t.pageLimit) {sent : List Request}
    (hsent : sent.length ≤ n + 1) :
    (t.deleteContents key (some token) >>= fun deleted =>
      if ((b₀.find? (key ++ t.suffix)).map StoredObject.status).isSome
        then t.deleteMarker key deleted else pure ()).Ensures
      (Bucket.cancelling noFaults token n) (fun _ _ => True) (t.EndsHeeding path n b₀)
      ⟨b₀, sent⟩ := by
  have hlength := b₀.length_keysUnder_le (key ++ "/")
  refine Action.ensures_bind (ensures_deleteContents_traced hroot ?_ (by omega)
    ⟨Erasing.start _ b₀, hsent⟩ ?_ ?_)
  · exact List.ne_nil_of_mem (Bucket.mem_keysUnder.2 ⟨hrest, rest, rfl⟩)
  · intro w h
    exact ensures_deleteLast_traced token hresolve hroot hfile h
  · intro fault w hquiet hleft hend call hcall
    exact ⟨key, _, hresolve, rfl,
      .of_stopped hfile (fun k => not_mem_since hquiet _) (Or.inr hleft) hend⟩

/-- A directory without children consists of its marker at most. -/
theorem ensures_deleteEmpty_traced (token : Token) (hresolve : t.resolve path = .ok key)
    (hroot : key ≠ Key.root) (hfile : b₀.contents key = none)
    (hbelow : ∀ rest, b₀.contents (key ++ "/" ++ rest) = none) {sent : List Request}
    (hsent : sent.length ≤ n + 1) :
    (if ((b₀.find? (key ++ t.suffix)).map StoredObject.status).isNone
      then Action.fail (.notFound key (.noSuchEntry key))
      else pure [] >>= fun deleted =>
        if ((b₀.find? (key ++ t.suffix)).map StoredObject.status).isSome
          then t.deleteMarker key deleted else pure ()).Ensures
      (Bucket.cancelling noFaults token n) (fun _ _ => True) (t.EndsHeeding path n b₀)
      ⟨b₀, sent⟩ := by
  have hnil := Bucket.keysUnder_eq_nil hbelow
  have hstart : Cancellable n (key ++ "/") b₀ [] (b₀.keysUnder (key ++ "/")) ⟨b₀, sent⟩ := by
    refine ⟨?_, hsent⟩
    have hnothing := Erasing.start (key ++ "/") b₀
    rwa [hnil] at hnothing ⊢
  have hlast := ensures_deleteLast_traced token hresolve hroot hfile hstart
  rw [hnil] at hlast
  cases hmarker : b₀.find? (key ++ t.suffix) with
  | some object =>
      rw [hmarker] at hlast
      exact Action.ensures_bind (Action.ensures_pure hlast)
  | none =>
      refine Action.ensures_fail ?_
      intro call hcall
      have hmarker := Bucket.contents_eq_none.2 hmarker
      refine ⟨key, _, hresolve, rfl, .of_gone hroot hfile ?_ ?_ ?_⟩
      · have hgone := DirectoryGone.of_below hmarker
        rwa [hnil, Contents.without_nil] at hgone
      · exact fun k hk => absurd hk (not_mem_since hstart.quiet _)
      · intro hthere
        exact absurd hmarker hthere

/-- On a store without faults, every recursive deletion ends as `EndsHeeding` says. -/
theorem ensures_delete_cancelled (t : Tree) (path : Value) (token : Token) (n : Nat) (b₀ : Bucket)
    (hpages : b₀.keys.length + 2 ≤ t.pageLimit) :
    (t.delete path true (some token)).Ensures (Bucket.cancelling noFaults token n)
      (fun _ _ => True) (t.EndsHeeding path n b₀) ⟨b₀, []⟩ := by
  have hnever : ∀ r, t.EndsHeeding path n b₀ r ⟨b₀, []⟩ := by
    intro r call hcall
    cases hcall
  refine Action.ensures_bind (ensures_key ?_)
  cases hresolve : t.resolve path with
  | error fault => exact hnever _
  | ok key =>
  show Action.Ensures _ _ _ (refuseRoot key .rootDelete path >>= fun _ => _) _
  unfold refuseRoot
  by_cases hroot : key = Key.root
  · rw [if_pos (beq_iff_eq.2 hroot)]
    exact Action.ensures_bind (Action.ensures_fail (hnever _))
  rw [if_neg fun h => hroot (eq_of_beq h)]
  refine Action.ensures_bind (Action.ensures_pure ?_)
  refine Action.ensures_bind (ensures_statusOf_traced (fun _ h => h) trivial ?_)
  cases hobject : b₀.find? key with
  | some object =>
      refine ensures_deleteFile_traced token hresolve ?_
      rw [Bucket.contents_of_find? hobject]
      exact Option.some_ne_none _
  | none =>
  have hfile := Bucket.contents_eq_none.2 hobject
  refine Action.ensures_bind
    (Directory.ensures_markerStatus_traced hroot (fun _ h => h) trivial ?_)
  refine Action.ensures_bind (ensures_hasChildren_cancelled ?_ ?_ ?_)
  · rintro ⟨rest, hrest⟩ request hunset
    rw [Key.directoryPrefix_eq hroot] at hrest
    show Action.Ensures _ _ _ (if _ then _ else if _ then _ else _) _
    rw [Bool.not_true, Bool.and_false, if_neg Bool.false_ne_true, if_neg (by decide)]
    exact ensures_deleteFull_traced hresolve hroot hfile hrest hpages (Nat.succ_le_succ hunset)
  · intro hbelow request hunset
    rw [Key.directoryPrefix_eq hroot] at hbelow
    show Action.Ensures _ _ _ (if _ then _ else if _ then _ else _) _
    rw [Bool.not_false, Bool.and_true, Bool.false_and]
    exact ensures_deleteEmpty_traced token hresolve hroot hfile hbelow (Nat.succ_le_succ hunset)
  · -- the token was set during one of the first two questions
    intro context hset call hcall
    have hhead : ∀ q ∈ [Request.head key, .head (key ++ t.suffix)], ∃ k, q = .head k := by
      simp
    refine ⟨key, _, hresolve, rfl, .of_stopped hfile ?_
      (Or.inl (hhead call (List.mem_of_getElem? hcall))) (Or.inl ⟨context, rfl, rfl⟩)⟩
    intro k hk
    obtain ⟨_, hquery⟩ := hhead _ (List.mem_of_mem_drop hk)
    cases hquery

/-- Recursive deletions without faults whose token is set during a request: no further object below
the directory is deleted, and if something of the directory is left, the outcome is a cancellation
or a report of exactly the deleted keys. The marker of an emptied directory, and the object of a
file, are still deleted. -/
theorem delete_cancelled {τ : Type} (backend : Backend τ) (view : τ → Bucket) {s : τ} (t : Tree)
    (path : Value) (token : Token) {before since : List (Request × τ)}
    {call : Request × τ} (hpages : (view s).keys.length + 2 ≤ t.pageLimit)
    (hrun : (t.delete path true (some token)).run.Undisturbed backend view noFaults s)
    (hcancelled : (t.delete path true (some token)).run.IsCancelled backend token s before call
      since) :
    ∃ key outcome, t.resolve path = .ok key ∧
      ((t.delete path true (some token)).perform backend s).1 = some outcome ∧
      HeedsToken t.suffix key (view s).contents
        (view ((t.delete path true (some token)).perform backend s).2).contents call.1
        (since.map (·.1)) outcome := by
  have hend := (ensures_delete_cancelled t path token before.length (view s) hpages).run_cancelled
    hcancelled hrun
  obtain ⟨key, outcome, hresolve, houtcome, hheeds⟩ := hend call.1 getElem?_call
  rw [← List.drop_drop, drop_call] at hheeds
  exact ⟨key, outcome, hresolve, houtcome, hheeds⟩

/-- The store in memory where all tokens are set during the deletion of the object at `key`. -/
abbrev cancelledAt (key : Key) : Backend Schedule.State :=
  (Schedule.undisturbed.cancelledBy (Request.deletes key)).backend "b"

/-- The token is set during the second of three deletions: the third object stays, and the two
deleted keys are reported. -/
theorem delete_cancelled_shelf :
    (∃ outcome, HeedsToken "_$folder$" "s" (shelf.bucket "b").contents
      (((keyByKey.delete "/s" true (some "c")).perform (cancelledAt "s//b")
        ⟨shelf, []⟩).2.memory.bucket "b").contents (.delete "s//b") [] outcome) ∧
    (Action.raised? ((keyByKey.delete "/s" true (some "c")).perform (cancelledAt "s//b")
      ⟨shelf, []⟩).1).bind Fault.removalReport? = some ⟨["s/", "s//b"], none⟩ := by
  have hrun : (keyByKey.delete "/s" true (some "c")).run.Undisturbed (cancelledAt "s//b")
      (fun s => s.memory.bucket "b") noFaults ⟨shelf, []⟩ :=
    Program.undisturbed_of_served
      (Schedule.backend_follows (Schedule.isLoud_cancelledBy Schedule.isLoud_undisturbed) "b")
      Schedule.loud_failsLoudly (fun _ _ => false) (fun _ _ h => absurd h Bool.false_ne_true)
      (by decide +kernel)
  have hfirst : ((keyByKey.delete "/s" true (some "c")).run.sent (cancelledAt "s//b")
      ⟨shelf, []⟩)[6]?.any (fun e => Request.deletes "s//b" e.1 &&
        !e.2.requests.any (Request.deletes "s//b")) = true := by decide +kernel
  have hlast : ((keyByKey.delete "/s" true (some "c")).run.sent (cancelledAt "s//b")
      ⟨shelf, []⟩).length ≤ 7 := by decide +kernel
  have hresolve : keyByKey.resolve "/s" = .ok "s" := rfl
  obtain ⟨call, hcall, -, hcancelled⟩ := Schedule.isCancelled_cancelledBy hfirst
  obtain ⟨key, outcome, hkey, -, hheeds⟩ := delete_cancelled (cancelledAt "s//b")
    (fun s => s.memory.bucket "b") keyByKey "/s" "c" (by decide +kernel) hrun hcancelled
  rw [hresolve] at hkey
  cases hkey
  rw [Request.eq_of_deletes hcall, List.drop_eq_nil_of_le hlast] at hheeds
  exact ⟨⟨outcome, hheeds⟩, by decide +kernel⟩

/-- The token is set during the deletion of the last object below the directory, and the marker is
deleted nevertheless. -/
theorem delete_misses_token :
    ∃ before call since, (keyByKey.delete "/s" true (some "c")).run.IsCancelled (cancelledAt "s/a")
        "c" ⟨shelf, []⟩ before call since ∧
      call.1 = .delete "s/a" ∧ .delete "s_$folder$" ∈ since.map (·.1) := by
  have hfirst : ((keyByKey.delete "/s" true (some "c")).run.sent (cancelledAt "s/a")
      ⟨shelf, []⟩)[8]?.any (fun e => Request.deletes "s/a" e.1 &&
        !e.2.requests.any (Request.deletes "s/a")) = true := by decide +kernel
  have hmarker : (((keyByKey.delete "/s" true (some "c")).run.sent (cancelledAt "s/a")
      ⟨shelf, []⟩).drop 9).any (fun e => Request.deletes "s_$folder$" e.1) = true := by
    decide +kernel
  obtain ⟨call, hcall, -, hcancelled⟩ := Schedule.isCancelled_cancelledBy hfirst
  obtain ⟨e, he, hdeletes⟩ := List.any_eq_true.1 hmarker
  exact ⟨_, call, _, hcancelled, Request.eq_of_deletes hcall,
    List.mem_map.2 ⟨e, he, Request.eq_of_deletes hdeletes⟩⟩

end Tree

end BucketTree
