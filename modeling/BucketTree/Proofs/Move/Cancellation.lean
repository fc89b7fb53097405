import Mathlib.Data.List.Infix
import BucketTree.Proofs.Move.Rename
import BucketTree.Proofs.Store.Cancellation

/-!
# Cancelled renames

The rename of a directory checks its token before each page, before each object, and once more
before it looks up the marker. If the token is set before that look-up, the move stops: the copy and
the deletion of the current object are completed (`CompletesLast`), and no other object is copied.
The loop invariant is `Interruptible`: apart from queries, the requests since the token was set
belong to the last move. A move that does look up the marker shows that the token was set too late
(`LooksTwice`).
-/

set_option autoImplicit false

namespace BucketTree

namespace Request

/-- The request is `head` for the key. -/
def asks (key : Key) : Request → Bool
  | .head target => target == key
  | _ => false

/-- The request is `get` for the key. -/
def reads (key : Key) : Request → Bool
  | .get source => source == key
  | _ => false

/-- A request that moves an object from `source` to `destination`. -/
def Moves (source destination : Key) (q : Request) : Prop :=
  q.IsCopy source destination ∨ q = .delete source

end Request

namespace Move

/-- The requests are queries, or they belong to the last of the moves. -/
def CompletesLast (pairs : List (Key × Key)) (requests : List Request) : Prop :=
  (∀ q ∈ requests, q.isQuery) ∨
    ∃ a b, pairs.getLast? = some (a, b) ∧ ∀ q ∈ requests, q.Moves a b

/-- The end of a cancelled move of a directory; `requests` are those from the one on during which
the token was set. -/
structure EndsCancelled (suffix : String) (source destination : Key) (b₀ : Bucket)
    (failure : Failure) (pairs : List (Key × Key)) (requests : List Request)
    (after : Contents) : Prop where
  /-- The pairs have moved, in the order of their keys, and nothing else has changed. -/
  orderly : Orderly suffix b₀.contents source destination pairs none after
  in_order : pairs.map (·.1) <+: b₀.keysUnder (source ++ "/")
  completes : CompletesLast pairs requests
  nothing_moved : pairs = [] → failure.kind = .cancelled ∧ after = b₀.contents
  some_moved : pairs ≠ [] →
    failure.kind = .partialMove ⟨some destination, pairs, none, true, false⟩

/-- Up to the request after the first `n` ones, the marker was looked up twice: by the checks of the
rename, and by the move. -/
def LooksTwice (marker : Key) (n : Nat) (w : Traced Bucket) : Prop :=
  2 ≤ (w.sent.take (n + 1)).countP (Request.asks marker)

/-- The loop invariant of a move whose token is set during the request after the first `n` ones. -/
structure Interruptible (suffix : String) (source destination : Key) (n : Nat) (b₀ : Bucket)
    (left : List Key) (record : List (Key × Key)) (w : Traced Bucket) : Prop
    extends Remaining suffix b₀.contents source destination (b₀.keysUnder (source ++ "/")) left
      record w.state where
  completes : CompletesLast record (w.sent.drop n)
  /-- The checks of the rename have looked up the marker. -/
  looked : 1 ≤ w.sent.countP (Request.asks (source ++ suffix))

/-- The loop was stopped by a check of the token. -/
def StopsCancelled (suffix : String) (source destination : Key) (n : Nat) (b₀ : Bucket)
    (fault : Fault) (record : List (Key × Key)) (w : Traced Bucket) : Prop :=
  (∃ context, fault = .known (.cancelled context)) ∧
    ∃ left, Interruptible suffix source destination n b₀ left record w

section Loop

variable {suffix : String} {overwrite : Bool} {b₀ : Bucket} {source destination key : Key}
  {left : List Key} {record : List (Key × Key)} {token : Token} {n : Nat} {w : Traced Bucket}

/-- If at most `n` requests were sent before, those after the first `n` ones are among the new
ones. -/
theorem mem_of_unset {sent new : List Request} (hunset : sent.length ≤ n) {q : Request}
    (hq : q ∈ (sent ++ new).drop n) : q ∈ new := by
  rw [List.drop_append, List.drop_eq_nil_of_le hunset, List.nil_append] at hq
  exact List.mem_of_mem_drop hq

theorem LooksTwice.mono {marker : Key} {w' : Traced Bucket} (h : LooksTwice marker n w)
    (hextends : w.sent <+: w'.sent) : LooksTwice marker n w' :=
  h.trans (List.IsPrefix.take hextends (n + 1)).sublist.countP_le

/-- The end of a move that a check of the token stops. -/
theorem Interruptible.endsCancelled {failure : Failure}
    (h : Interruptible suffix source destination n b₀ left record w)
    (hnone : record = [] → failure.kind = .cancelled)
    (hsome : record ≠ [] →
      failure.kind = .partialMove ⟨some destination, record, none, true, false⟩) :
    EndsCancelled suffix source destination b₀ failure record (w.sent.drop n)
      w.state.contents where
  orderly := h.orderly
  in_order := ⟨left, h.keys_eq.symm⟩
  completes := h.completes
  nothing_moved := by
    rintro rfl
    exact ⟨hnone rfl, h.orderly.toProgress.eq_before⟩
  some_moved := hsome

/-- Asking for a page preserves the invariant. -/
theorem Interruptible.ask (h : Interruptible suffix source destination n b₀ left record w)
    (hunset : w.sent.length ≤ n) (request : PageRequest) :
    Interruptible suffix source destination n b₀ left record
      ⟨w.state, w.sent ++ [.list request]⟩ where
  toRemaining := h.toRemaining
  completes := by
    refine Or.inl fun q hq => ?_
    cases List.mem_singleton.1 (mem_of_unset hunset hq)
    trivial
  looked := by
    rw [List.countP_append]
    exact Nat.le_add_right_of_le h.looked

/-- When at most copies fail, because they are unsupported, the first key left moves, by requests of
its own move only. -/
theorem ensures_moveNext_served {b : Bucket}
    (hr : Renamable suffix overwrite b₀.contents source destination)
    (hdirectory : b₀.contents source = none)
    (h : Remaining suffix b₀.contents source destination (b₀.keysUnder (source ++ "/"))
      (key :: left) record b) :
    (step source destination key (newKey source destination key)).Ensures
      (Bucket.environment unsupportedCopies)
      (fun q _ => q.Moves key (newKey source destination key))
      (Walk.Ends
        (fun _ record' b => record' = record ++ [(key, newKey source destination key)] ∧
          Remaining suffix b₀.contents source destination (b₀.keysUnder (source ++ "/")) left
            record' b)
        (fun _ _ _ => False) fun _ => False) record b := by
  have hkey : key ∈ b.keysUnder (source ++ "/") := by
    rw [h.keysUnder_eq hr hdirectory]
    exact List.mem_cons_self
  obtain ⟨hpresent, rest, rfl⟩ := Bucket.mem_keysUnder.1 hkey
  have hbelow : Relocates suffix b₀.contents source destination _ _ := .below hdirectory rest
  have hremains : (step source destination (source ++ "/" ++ rest) _).Ensures _ _
      (Walk.Ends _ _ fun _ => False) record b :=
    ensures_moveNext loud_unsupportedCopies hr hdirectory h
  rw [newKey_below hr.source_ne_root hr.destination_ne_root] at hremains ⊢
  -- what is sent for the object, and that the move does not stop there
  have hmoves : (step source destination (source ++ "/" ++ rest)
      (destination ++ "/" ++ rest)).Ensures (Bucket.environment unsupportedCopies)
      (fun q _ => q.Moves (source ++ "/" ++ rest) (destination ++ "/" ++ rest))
      (Walk.Ends
        (fun _ record' _ => record' =
          record ++ [(source ++ "/" ++ rest, destination ++ "/" ++ rest)])
        (fun _ _ _ => False) fun _ => False) record b := by
    apply ensures_step loud_unsupportedCopies (hbelow.source_ne_image hbelow hr.ne hr.apart)
      hpresent
    · exact fun q hq => Or.inl hq
    · exact fun _ _ => Or.inr rfl
    · exact fun _ _ => rfl
    · exact fun _ hmay => absurd hmay not_mayFail_unsupportedCopies
    · exact fun _ _ hmay => absurd hmay not_mayFail_unsupportedCopies
  refine (hmoves.and hremains).mono ?_
  rintro (_ | ⟨fault | _, record'⟩) b' ⟨hmoved, hremaining⟩
  · exact hmoved
  · exact hmoved
  · exact ⟨hmoved, hremaining⟩

/-- One round of the loop moves the first key left, unless the token is set. -/
theorem ensures_visit_cancelled
    (hr : Renamable suffix overwrite b₀.contents source destination)
    (hdirectory : b₀.contents source = none)
    (h : Interruptible suffix source destination n b₀ (key :: left) record w) :
    (visit source destination (some token) key).Ensures
      (Bucket.cancelling unsupportedCopies token n) (fun _ _ => True)
      (Walk.Ends (fun _ => Interruptible suffix source destination n b₀ left)
        (StopsCancelled suffix source destination n b₀) fun _ => False) record w := by
  refine Walk.ensures_bind (Walk.ensures_ofAction (Action.ensures_checkCancelled_traced ?_ ?_))
  · intro hset
    have hunset := Nat.not_lt.1 (of_decide_eq_false hset)
    refine Program.Ensures.mono_sends (Program.Ensures.mono (Program.Ensures.traced
      (ensures_moveNext_served hr hdirectory h.toRemaining)) ?_) fun _ _ _ => trivial
    rintro (_ | ⟨fault | _, record'⟩) w' ⟨hend, sent, hsent, hmoves⟩
    · exact hend
    · exact hend.elim
    · obtain ⟨rfl, hremaining⟩ := hend
      refine ⟨hremaining, ?_, ?_⟩
      · -- if the token was set now, then during one of the requests for this object
        rw [hsent]
        refine Or.inr ⟨_, _, List.getLast?_concat, fun q hq => ?_⟩
        obtain ⟨_, hq⟩ := hmoves q (mem_of_unset hunset hq)
        exact hq
      · rw [hsent, List.countP_append]
        exact Nat.le_add_right_of_le h.looked
  · intro _
    exact ⟨⟨_, rfl⟩, key :: left, h⟩

/-- The loop moves every object below the directory, or a check of the token stops it. -/
theorem ensures_below_cancelled {pageLimit : Nat} {pageSize : Value}
    (hr : Renamable suffix overwrite b₀.contents source destination)
    (hdirectory : b₀.contents source = none)
    (hpages : (b₀.keysUnder (source ++ "/")).length + 2 ≤ pageLimit)
    (h : Interruptible suffix source destination n b₀ (b₀.keysUnder (source ++ "/")) record w) :
    ((Listing.start (Key.directoryPrefix source) true pageSize (some token)).walk
      (fun chunk => chunk.keys.forM (visit source destination (some token))) pageLimit).Ensures
      (Bucket.cancelling unsupportedCopies token n) (fun _ _ => True)
      (Walk.Ends (fun _ => Interruptible suffix source destination n b₀ [])
        (StopsCancelled suffix source destination n b₀) fun _ => False) record w := by
  rw [Key.directoryPrefix_eq hr.source_ne_root]
  refine Listing.ensures_walk_keys (fun w => w.state) ?_ ?_ ?_ ?_ h
  · intro left record w h
    exact h.keysUnder_eq hr hdirectory
  · intro l left record w _ hcancel hopen h _ hnames
    refine Listing.ensures_next_traced hopen hcancel hnames trivial (fun _ h => h) ?_ ?_
    · intro hset
      exact h.ask (Nat.not_lt.1 (of_decide_eq_false hset)) _
    · intro _
      exact ⟨⟨_, rfl⟩, left, h⟩
  · intro key left record w h
    exact ensures_visit_cancelled hr hdirectory h
  · intro hfew
    exact absurd hpages (Nat.not_le.2 hfew)

/-- A look-up of the marker is counted in every extension of the trace. -/
theorem one_le_looks {marker : Key} {sent sent' : List Request}
    (hextends : sent ++ [.head marker] <+: sent') :
    sent.countP (Request.asks marker) + 1 ≤ sent'.countP (Request.asks marker) := by
  have hcount := hextends.sublist.countP_le (p := Request.asks marker)
  rw [List.countP_append] at hcount
  simpa [Request.asks] using hcount

/-- A move that reaches its last step looks up the marker a second time. -/
theorem ensures_markerStep_cancelled (hroot : source ≠ Key.root) (hunset : w.sent.length ≤ n)
    (hlooked : 1 ≤ w.sent.countP (Request.asks (source ++ suffix))) :
    (markerStep suffix source destination).Ensures (Bucket.cancelling unsupportedCopies token n)
      (fun _ _ => True) (fun _ w => LooksTwice (source ++ suffix) n w) record w := by
  refine Walk.ensures_bind (Walk.ensures_ofAction
    (Directory.ensures_markerStatus_traced hroot (fun _ h => h) trivial ?_))
  refine Program.Ensures.mono (Program.ensures_extends _ _) ?_
  intro r w' hextends
  have hlength : (w.sent ++ [Request.head (source ++ suffix)]).length ≤ n + 1 := by
    rw [List.length_append]
    exact Nat.add_le_add_right hunset 1
  have hlooks := one_le_looks (List.prefix_take_iff.2 ⟨hextends, hlength⟩)
  exact (Nat.add_le_add_right hlooked 1).trans hlooks

/-- The end of the move of a directory whose token is set during the request after the first `n`
ones, unless the marker was looked up twice by then. -/
def EndsEarly (suffix : String) (source destination : Key) (n : Nat) (b₀ : Bucket) :
    Option (Except Fault Moved) → Traced Bucket → Prop := fun r w =>
  LooksTwice (source ++ suffix) n w ∨ ∃ failure pairs, r = some (.error (.known failure)) ∧
    EndsCancelled suffix source destination b₀ failure pairs (w.sent.drop n) w.state.contents

/-- The loop and the last step are stopped by a check, unless the marker was looked up before. -/
theorem ensures_contents_cancelled {settings : Settings} {pageLimit : Nat}
    (hr : Renamable settings.folderSuffix overwrite b₀.contents source destination)
    (hdirectory : b₀.contents source = none)
    (hpages : (b₀.keysUnder (source ++ "/")).length + 2 ≤ pageLimit)
    (h : Interruptible settings.folderSuffix source destination n b₀
      (b₀.keysUnder (source ++ "/")) [] w) :
    (contents settings pageLimit source destination (some token)).Ensures
      (Bucket.cancelling unsupportedCopies token n) (fun _ _ => True)
      (fun r w => LooksTwice (source ++ settings.folderSuffix) n w ∨
        Walk.Ends (fun _ _ _ => False)
          (StopsCancelled settings.folderSuffix source destination n b₀) (fun _ => False) r w)
      [] w := by
  refine Walk.ensures_bind ((ensures_below_cancelled hr hdirectory hpages h).mono ?_)
  rintro (_ | ⟨fault | _, record⟩) w hend
  · exact hend.elim
  · exact Or.inr hend
  · refine Walk.ensures_bind (Walk.ensures_ofAction
      (Action.ensures_checkCancelled_traced ?_ ?_))
    · intro hset
      have hunset := Nat.not_lt.1 (of_decide_eq_false hset)
      refine Walk.Ensures.mono
        (ensures_markerStep_cancelled hr.source_ne_root hunset hend.looked) ?_
      exact fun _ _ htwice => Or.inl htwice
    · intro _
      exact Or.inr ⟨⟨_, rfl⟩, [], hend⟩

/-- The move of a directory ends as `EndsEarly` says. -/
theorem ensures_directory_cancelled {settings : Settings} {pageLimit : Nat}
    (hr : Renamable settings.folderSuffix overwrite b₀.contents source destination)
    (hdirectory : b₀.contents source = none)
    (hpages : (b₀.keysUnder (source ++ "/")).length + 2 ≤ pageLimit)
    (h : Interruptible settings.folderSuffix source destination n b₀
      (b₀.keysUnder (source ++ "/")) [] w) :
    (directory settings pageLimit source destination (some token)).Ensures
      (Bucket.cancelling unsupportedCopies token n) (fun _ _ => True)
      (EndsEarly settings.folderSuffix source destination n b₀) w := by
  refine Action.ensures_bind (Walk.ensures_collect
    ((ensures_contents_cancelled hr hdirectory hpages h).mono ?_))
  rintro (_ | ⟨fault | _, record⟩) w (htwice | hend)
  -- whatever a move does that has asked for the marker twice, its trace goes on telling that
  · exact Or.inl htwice
  · exact hend.elim
  · exact Program.Ensures.mono (Program.ensures_extends _ w) fun _ _ hextends =>
      Or.inl (htwice.mono hextends)
  · obtain ⟨⟨context, rfl⟩, left, h⟩ := hend
    show Action.Ensures _ _ _ (if isInterruption (.cancelled context) && !record.isEmpty then _
      else _) w
    rw [isInterruption_of_query (Or.inr (Or.inr rfl)), Bool.true_and]
    split
    next hmoved =>
      refine Or.inr ⟨_, record, rfl, h.endsCancelled ?_ fun _ => rfl⟩
      rintro rfl
      cases hmoved
    next hnone =>
      obtain rfl : record = [] := by simpa using hnone
      exact Or.inr ⟨_, [], rfl, h.endsCancelled (fun _ => rfl) fun hmoved => absurd rfl hmoved⟩
  · exact Or.inl htwice
  · exact hend.elim

end Loop

end Move

namespace Tree

variable {t : Tree} {sourcePath destinationPath : Value} {overwrite : Bool}
  {source destination : Key} {token : Token} {b₀ : Bucket}

/-- The conditions under which the checks of a rename accept a source directory and a
destination. -/
structure MayRename (t : Tree) (sourcePath destinationPath : Value) (source destination : Key)
    (contents : Contents) : Prop where
  source_resolves : t.resolve sourcePath = .ok source
  destination_resolves : t.resolve destinationPath = .ok destination
  ends_fit : checkEnds sourcePath destinationPath source destination = .ok ()
  source_no_file : contents source = none
  source_directory : Directory.IsAt t.suffix source contents
  destination_no_file : contents destination = none
  destination_no_directory : ¬ Directory.IsAt t.suffix destination contents

theorem MayRename.isFree {contents : Contents}
    (h : t.MayRename sourcePath destinationPath source destination contents) :
    IsFree t.suffix false contents destination :=
  ⟨fun hfile => absurd h.destination_no_file hfile, fun _ => h.destination_no_directory⟩

theorem MayRename.renamable {contents : Contents}
    (h : t.MayRename sourcePath destinationPath source destination contents) :
    Renamable t.suffix overwrite contents source destination :=
  renamable_directory h.source_no_file h.source_directory (checkEnds_eq_ok h.ends_fit) h.isFree
    t.settings.separator_not_mem

/-- The check that the destination is free succeeds, by queries only. -/
theorem MayRename.ensures_isTaken
    (h : t.MayRename sourcePath destinationPath source destination b₀.contents) :
    (t.isTaken destinationPath false).Ensures (Bucket.environment unsupportedCopies)
      (fun q _ => q.isQuery) (fun r b => r = some (.ok false) ∧ b = b₀) b₀ := by
  obtain ⟨-, hroot, -⟩ := checkEnds_eq_ok h.ends_fit
  refine Tree.ensures_isTaken loud_unsupportedCopies h.destination_resolves hroot
    (fun _ hq => hq) (fun _ => ⟨rfl, rfl⟩) (fun hnot => absurd h.isFree hnot)
    fun _ _ hmay => absurd hmay not_queryMayFail_unsupportedCopies

/-- The check that the source is a directory succeeds, by queries only. -/
theorem MayRename.ensures_exists?
    (h : t.MayRename sourcePath destinationPath source destination b₀.contents) :
    (Directory.exists? t.suffix source).Ensures (Bucket.environment unsupportedCopies)
      (fun q _ => q.isQuery) (fun r b => r = some (.ok true) ∧ b = b₀) b₀ :=
  Directory.ensures_exists? loud_unsupportedCopies (fun _ hq => hq) (fun _ => ⟨rfl, rfl⟩)
    (fun hnot => absurd h.source_directory hnot)
    fun _ _ hmay => absurd hmay not_queryMayFail_unsupportedCopies

/-- A rename whose checks succeed ends as `EndsEarly` says. -/
theorem ensures_rename_cancelled (n : Nat)
    (h : t.MayRename sourcePath destinationPath source destination b₀.contents)
    (hpages : b₀.keys.length + 2 ≤ t.pageLimit) :
    (t.rename sourcePath destinationPath (some token) overwrite).Ensures
      (Bucket.cancelling unsupportedCopies token n) (fun _ _ => True)
      (Move.EndsEarly t.suffix source destination n b₀) ⟨b₀, []⟩ := by
  have hr : Renamable t.suffix overwrite b₀.contents source destination := h.renamable
  refine Action.ensures_bind (ensures_key ?_)
  rw [h.source_resolves]
  refine Action.ensures_bind (ensures_key ?_)
  rw [h.destination_resolves]
  refine Action.ensures_bind (Action.ensures_ofPath ?_ fun refusal hrefused => ?_)
  · intro _ _
    refine Action.ensures_bind (ensures_statusOf_traced (fun _ hfault => hfault) trivial ?_)
    rw [Bucket.contents_eq_none.1 h.source_no_file]
    show Action.Ensures _ _ _ (t.isTaken destinationPath (overwrite && false) >>= fun _ => _) _
    rw [Bool.and_false]
    refine Action.ensures_bind (Program.Ensures.mono_sends (Program.Ensures.mono
      (Program.Ensures.traced h.ensures_isTaken) ?_) fun _ _ _ => trivial)
    rintro _ ⟨b, sent⟩ ⟨⟨rfl, hstate⟩, asked, hsent, hasked⟩
    obtain rfl : b = b₀ := hstate
    obtain rfl : sent = .head source :: asked := hsent
    show Action.Ensures _ _ _ (Directory.exists? t.suffix source >>= fun _ => _) _
    refine Action.ensures_bind (Program.Ensures.mono_sends (Program.Ensures.mono
      ((Program.Ensures.traced (w := ⟨b, .head source :: asked⟩) h.ensures_exists?).and
        (Directory.ensures_exists?_asks hr.source_ne_root fun _ hfault => hfault)) ?_)
      fun _ _ _ => trivial)
    rintro _ ⟨b', sent⟩ ⟨⟨⟨rfl, hstate⟩, asked', hsent, hasked'⟩, hextends⟩
    obtain rfl : b' = b := hstate
    obtain rfl : sent = .head source :: asked ++ asked' := hsent
    have hlength := b'.length_keysUnder_le (source ++ "/")
    -- so far there were only questions, the one for the marker among them
    refine Move.ensures_directory_cancelled hr h.source_no_file (by omega)
      ⟨⟨rfl, .start⟩, Or.inl fun q hq => ?_, ?_⟩
    · rcases List.mem_append.1 (List.mem_of_mem_drop hq) with hq | hq
      · rcases List.mem_cons.1 hq with rfl | hq
        · trivial
        · obtain ⟨_, hquery⟩ := hasked q hq
          exact hquery
      · obtain ⟨_, hquery⟩ := hasked' q hq
        exact hquery
    · exact (Nat.le_add_left 1 _).trans (Move.one_le_looks hextends)
  · rw [h.ends_fit] at hrefused
    cases hrefused

/-- Renames of a directory whose token is set during any request before the move looks up the
marker, on a store where at most copies are unsupported: the current object arrives, no other object
is copied, and the outcome is a cancellation with nothing changed, or a report of exactly the moved
objects. -/
theorem rename_cancelled {τ : Type} (backend : Backend τ) (view : τ → Bucket) {s : τ} (t : Tree)
    (sourcePath destinationPath : Value) (overwrite : Bool) (token : Token)
    {source destination : Key} {before since : List (Request × τ)} {call : Request × τ}
    (hmay : t.MayRename sourcePath destinationPath source destination (view s).contents)
    (hpages : (view s).keys.length + 2 ≤ t.pageLimit)
    (hrun : (t.rename sourcePath destinationPath (some token) overwrite).run.Undisturbed backend
      view unsupportedCopies s)
    (hcancelled : (t.rename sourcePath destinationPath (some token) overwrite).run.IsCancelled
      backend token s before call since)
    (hearly : (before ++ [call]).countP (fun e => e.1.asks (source ++ t.suffix)) ≤ 1) :
    ∃ failure pairs,
      ((t.rename sourcePath destinationPath (some token) overwrite).perform backend s).1 =
        some (.error (.known failure)) ∧
      Move.EndsCancelled t.suffix source destination (view s) failure pairs
        ((call :: since).map (·.1))
        (view ((t.rename sourcePath destinationPath (some token) overwrite).perform backend
          s).2).contents := by
  have hend := (ensures_rename_cancelled before.length hmay hpages).run_cancelled hcancelled hrun
  rcases hend with htwice | ⟨failure, pairs, hraised, hends⟩
  · unfold Move.LooksTwice at htwice
    rw [take_call, List.countP_map] at htwice
    exact absurd hearly (Nat.not_le.2 htwice)
  · rw [drop_call] at hends
    exact ⟨failure, pairs, hraised, hends⟩

/-- The schedule under which copies are unsupported. -/
def copyless : Schedule where
  raised
    | .copy _ _ :: _ => some (.unsupported none)
    | _ => none
  isCancelled _ _ := false

theorem isLoud_copyless : copyless.IsLoud := by
  intro requests fault h
  unfold copyless at h
  dsimp only at h
  split at h <;> cases h
  rfl

/-- The store without copies where all tokens are set during the read of the object at `key`. -/
abbrev cancelledReading (key : Key) : Backend Schedule.State :=
  (copyless.cancelledBy (Request.reads key)).backend "b"

/-- The token is set while the second of three objects is read in order to copy it. That object is
still written and deleted, the third one stays, and both moves are reported. -/
theorem rename_cancelled_shelf :
    (∃ failure pairs requests, Move.EndsCancelled "_$folder$" "s" "t" (shelf.bucket "b") failure
      pairs requests (((keyByKey.rename "/s" "/t" (some "c") false).perform
        (cancelledReading "s//b") ⟨shelf, []⟩).2.memory.bucket "b").contents) ∧
    (Action.raised? ((keyByKey.rename "/s" "/t" (some "c") false).perform
      (cancelledReading "s//b") ⟨shelf, []⟩).1).bind Fault.moveReport? =
      some ⟨some "t", [("s/", "t/"), ("s//b", "t//b")], none, true, false⟩ := by
  have hmay : keyByKey.MayRename "/s" "/t" "s" "t" (shelf.bucket "b").contents := by
    refine ⟨rfl, rfl, rfl, by decide +kernel, Or.inr (Or.inl (by decide +kernel)),
      by decide +kernel, ?_⟩
    have hbelow : (shelf.bucket "b").keysUnder "t/" = [] := by decide +kernel
    rintro (hroot | hmarker | ⟨rest, hrest⟩)
    · exact absurd hroot (by decide)
    · exact hmarker (by decide +kernel)
    · have hmem := Bucket.mem_keysUnder.2 ⟨hrest, rest, rfl⟩
      exact absurd (hbelow ▸ hmem) List.not_mem_nil
  have hrun : (keyByKey.rename "/s" "/t" (some "c") false).run.Undisturbed
      (cancelledReading "s//b") (fun s => s.memory.bucket "b") unsupportedCopies ⟨shelf, []⟩ := by
    refine Program.undisturbed_of_served
      (Schedule.backend_follows (Schedule.isLoud_cancelledBy isLoud_copyless) "b")
      Schedule.loud_failsLoudly (fun q fault => q.operation == .copy && fault.isUnsupported) ?_
      (by decide +kernel)
    intro q fault hadmits
    cases q with
    | copy source destination => exact hadmits
    | _ => cases hadmits
  have hfirst : ((keyByKey.rename "/s" "/t" (some "c") false).run.sent (cancelledReading "s//b")
      ⟨shelf, []⟩)[12]?.any (fun e => Request.reads "s//b" e.1 &&
        !e.2.requests.any (Request.reads "s//b")) = true := by decide +kernel
  obtain ⟨call, -, htake, hcancelled⟩ := Schedule.isCancelled_cancelledBy hfirst
  have hearly : (((keyByKey.rename "/s" "/t" (some "c") false).run.sent (cancelledReading "s//b")
      ⟨shelf, []⟩).take 12 ++ [call]).countP (fun e => e.1.asks ("s" ++ keyByKey.suffix)) ≤ 1 := by
    rw [htake]
    decide +kernel
  obtain ⟨failure, pairs, -, hends⟩ := rename_cancelled (cancelledReading "s//b")
    (fun s => s.memory.bucket "b") keyByKey "/s" "/t" false "c" hmay (by decide +kernel) hrun
    hcancelled hearly
  exact ⟨⟨failure, pairs, _, hends⟩, by decide +kernel⟩

end Tree

end BucketTree
