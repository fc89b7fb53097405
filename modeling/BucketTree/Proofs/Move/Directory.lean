import BucketTree.Proofs.Move.Orderly
import BucketTree.Proofs.Move.Steps

/-!
# Moving a directory

The loop over the objects below a directory has the invariant `Remaining`: the recorded keys and the
keys left are those of the start, and the move so far is orderly. Since the new keys do not lie
below the source, the keys left are those that the bucket still has there, and each page continues
after the last one. `Stopped` states what a failure leaves behind.
-/

set_option autoImplicit false

namespace BucketTree.Move

/-- The condition under which an orderly move sends a request: the object of a copy has not moved
yet. -/
def Sends (suffix : String) (before : Contents) (source destination : Key) (request : Request)
    (b : Bucket) : Prop :=
  ∃ moved copied, Orderly suffix before source destination moved copied b.contents ∧
    ∀ key image, request = .copy key image →
      copied = none ∧ Relocates suffix before source destination key image ∧
        before key ≠ none ∧ ∀ image', (key, image') ∉ moved

/-- The states in which a move may stop, with its failure. -/
inductive Stopped (suffix : String) (before : Contents) (source destination : Key) :
    Failure → Contents → Prop
  /-- Nothing has changed. -/
  | unchanged {failure : Failure} (hkind : ∀ report, failure.kind ≠ .partialMove report) :
      Stopped suffix before source destination failure before
  /-- The move stopped between two objects. -/
  | between {failure : Failure} {moved : List (Key × Key)} {after : Contents}
      (hkind : failure.kind = .partialMove ⟨some destination, moved, none, true, false⟩)
      (h : Orderly suffix before source destination moved none after) :
      Stopped suffix before source destination failure after
  /-- The move stopped at an object of a directory that was not copied. -/
  | beforeCopy {failure : Failure} {moved : List (Key × Key)} {key image : Key}
      {after : Contents}
      (hkind : failure.kind = .partialMove ⟨some destination, moved, some key, true, false⟩)
      (h : Orderly suffix before source destination moved none after)
      (hdirectory : before source = none)
      (himage : Relocates suffix before source destination key image)
      (hpresent : before key ≠ none) (hnew : ∀ image', (key, image') ∉ moved) :
      Stopped suffix before source destination failure after
  /-- The move stopped at an object that was copied and not deleted. -/
  | afterCopy {failure : Failure} {moved : List (Key × Key)} {key image : Key}
      {after : Contents}
      (hkind : failure.kind = .partialMove ⟨some destination, moved, some key, true, true⟩)
      (h : Orderly suffix before source destination moved (some (key, image)) after)
      (hnew : ∀ image', (key, image') ∉ moved) :
      Stopped suffix before source destination failure after

/-- The loop invariant of the move of a directory: the recorded objects have moved, and those at the
keys left have not. -/
structure Remaining (suffix : String) (before : Contents) (source destination : Key)
    (keys left : List Key) (record : List (Key × Key)) (b : Bucket) : Prop where
  keys_eq : keys = record.map (·.1) ++ left
  orderly : Orderly suffix before source destination record none b.contents

/-- The loop stopped: by an interruption, which is reported by its caller, or by a failure that
carries the report. -/
def StoppedAt (suffix : String) (before : Contents) (source destination : Key) (fault : Fault)
    (record : List (Key × Key)) (b : Bucket) : Prop :=
  ∃ failure, fault = .known failure ∧
    ((isInterruption failure = true ∧
        Orderly suffix before source destination record none b.contents) ∨
      (isInterruption failure = false ∧
        Stopped suffix before source destination failure b.contents))

theorem isInterruption_of_query {failure : Failure} (h : IsQueryFailure failure) :
    isInterruption failure = true := by
  unfold isInterruption
  rcases h with h | h | h <;> rw [h]

section Directory

variable {suffix : String} {overwrite : Bool} {fails : Request → Fault → Prop} {b₀ b : Bucket}
  {source destination key : Key} {left : List Key} {record : List (Key × Key)}

/-- In an orderly move, any request other than a copy may be sent. -/
theorem sends_of_orderly {before : Contents} {moved : List (Key × Key)}
    {copied : Option (Key × Key)}
    (h : Orderly suffix before source destination moved copied b.contents) {request : Request}
    (hother : ∀ a image, request ≠ .copy a image) :
    Sends suffix before source destination request b :=
  ⟨moved, copied, h, fun a image heq => absurd heq (hother a image)⟩

/-- A key that is left is not recorded. -/
theorem Remaining.not_recorded {before : Contents} {keys : List Key}
    (h : Remaining suffix before source destination keys left record b)
    (hsorted : keys.Pairwise (· < ·)) (hkey : key ∈ left) : ∀ image, (key, image) ∉ record := by
  intro image hm
  rw [h.keys_eq] at hsorted
  have hdone : key ∈ record.map (·.1) := List.mem_map.2 ⟨_, hm, rfl⟩
  exact String.lt_irrefl key ((List.pairwise_append.1 hsorted).2.2 key hdone key hkey)

/-- The keys left are those that the bucket still has below the source. -/
theorem Remaining.keysUnder_eq
    (hr : Renamable suffix overwrite b₀.contents source destination)
    (hdirectory : b₀.contents source = none)
    (h : Remaining suffix b₀.contents source destination (b₀.keysUnder (source ++ "/")) left
      record b) : b.keysUnder (source ++ "/") = left := by
  have hsorted := b₀.keysUnder_increasing (source ++ "/")
  have hleft := hsorted
  rw [h.keys_eq] at hleft
  apply Bucket.keysUnder_eq_of_mem (List.pairwise_append.1 hleft).2.1
  -- a key below the source is no new key, so it was kept unless it has moved
  have hkept : ∀ rest, (∀ image, (source ++ "/" ++ rest, image) ∉ record) →
      b.contents (source ++ "/" ++ rest) = b₀.contents (source ++ "/" ++ rest) := by
    intro rest hnew
    have hbelow : Relocates suffix b₀.contents source destination _ _ := .below hdirectory rest
    apply h.orderly.kept _
    · intro a image hm
      refine ⟨?_, hbelow.source_ne_image (h.orderly.relocates a image (Or.inl hm)) hr.ne hr.apart⟩
      rintro rfl
      exact hnew image hm
    · intro a image hc
      cases hc
  intro key
  constructor
  · -- a key that is left has not moved
    intro hleft
    have hkey : key ∈ b₀.keysUnder (source ++ "/") := by
      rw [h.keys_eq]
      exact List.mem_append_right _ hleft
    obtain ⟨hpresent, rest, rfl⟩ := Bucket.mem_keysUnder.1 hkey
    refine ⟨?_, rest, rfl⟩
    rw [hkept rest (h.not_recorded hsorted hleft)]
    exact hpresent
  · -- a key that is there has not moved, and was there at first
    rintro ⟨hpresent, rest, rfl⟩
    have hnew : ∀ image, (source ++ "/" ++ rest, image) ∉ record := fun image hm =>
      hpresent (h.orderly.gone _ image hm)
    rw [hkept rest hnew] at hpresent
    have hkey := Bucket.mem_keysUnder.2 ⟨hpresent, rest, rfl⟩
    rw [h.keys_eq] at hkey
    rcases List.mem_append.1 hkey with hdone | hleft
    · obtain ⟨⟨a, image⟩, hm, rfl⟩ := List.mem_map.1 hdone
      exact absurd hm (hnew image)
    · exact hleft

variable {endless : Bucket → Prop}

/-- Moving one object keeps the move orderly. -/
theorem ensures_orderlyStep (hloud : Loud fails)
    (hr : Renamable suffix overwrite b₀.contents source destination)
    (hdirectory : b₀.contents source = none) {image : Key}
    {done : List (Key × Key) → Bucket → Prop}
    (h : Orderly suffix b₀.contents source destination record none b.contents)
    (himage : Relocates suffix b₀.contents source destination key image)
    (hpresent : b₀.contents key ≠ none) (hnew : ∀ image', (key, image') ∉ record)
    (hlast : key = source ++ suffix → ∀ rest, b₀.contents (source ++ "/" ++ rest) ≠ none →
      ∃ image', (source ++ "/" ++ rest, image') ∈ record)
    (hdone : ∀ b', Orderly suffix b₀.contents source destination (record ++ [(key, image)]) none
      b'.contents → done (record ++ [(key, image)]) b') :
    (step source destination key image).Ensures (Bucket.environment fails)
      (Sends suffix b₀.contents source destination)
      (Walk.Ends (fun _ => done) (StoppedAt suffix b₀.contents source destination) endless)
      record b := by
  have hfresh := h.isFresh hr himage hnew
  have hhalf := h.copy hr himage hpresent hnew
  have hnow : b.contents key ≠ none := by
    rw [h.source_kept hfresh]
    exact hpresent
  apply ensures_step hloud (himage.source_ne_image himage hr.ne hr.apart) hnow
  · intro q hq
    refine ⟨record, none, h, ?_⟩
    rintro a image' rfl
    obtain ⟨rfl, rfl⟩ := hq
    exact ⟨rfl, himage, hpresent, hnew⟩
  · intro b' hb'
    rw [← hb'] at hhalf
    exact sends_of_orderly hhalf (fun a image' => by rintro ⟨⟩)
  · intro b' hb'
    apply hdone b'
    rw [hb']
    exact hhalf.delete hr hnew (fun _ => hlast)
  · -- the copy failed: the failure reports the record, unless that is empty
    intro failure _ hkind
    refine ⟨failure, rfl, Or.inr ?_⟩
    by_cases hempty : record.isEmpty = true
    · rw [if_pos hempty] at hkind
      obtain rfl := List.isEmpty_iff.1 hempty
      refine ⟨by unfold isInterruption; rw [hkind], ?_⟩
      rw [h.toProgress.eq_before]
      refine .unchanged fun report heq => ?_
      rw [hkind] at heq
      cases heq
    · rw [if_neg hempty] at hkind
      exact ⟨by unfold isInterruption; rw [hkind],
        .beforeCopy hkind h hdirectory himage hpresent hnew⟩
  · -- the deletion failed: the object lies at both keys
    intro b' failure _ hb' hkind
    refine ⟨failure, rfl, Or.inr ⟨by unfold isInterruption; rw [hkind], ?_⟩⟩
    rw [← hb'] at hhalf
    exact .afterCopy hkind hhalf hnew

/-- Moving the first key left preserves the invariant. -/
theorem ensures_moveNext (hloud : Loud fails)
    (hr : Renamable suffix overwrite b₀.contents source destination)
    (hdirectory : b₀.contents source = none)
    (h : Remaining suffix b₀.contents source destination (b₀.keysUnder (source ++ "/"))
      (key :: left) record b) :
    (step source destination key (newKey source destination key)).Ensures (Bucket.environment fails)
      (Sends suffix b₀.contents source destination)
      (Walk.Ends (fun _ => Remaining suffix b₀.contents source destination
        (b₀.keysUnder (source ++ "/")) left)
        (StoppedAt suffix b₀.contents source destination) endless) record b := by
  have hkey : key ∈ b₀.keysUnder (source ++ "/") := by
    rw [h.keys_eq]
    exact List.mem_append_right _ List.mem_cons_self
  have hnew := h.not_recorded (b₀.keysUnder_increasing _) List.mem_cons_self
  obtain ⟨hpresent, rest, rfl⟩ := Bucket.mem_keysUnder.1 hkey
  rw [newKey_below hr.source_ne_root hr.destination_ne_root]
  refine ensures_orderlyStep hloud hr hdirectory h.orderly (.below hdirectory rest) hpresent
    hnew ?_ ?_
  · -- the marker is not among the keys below the source
    intro hmarker
    exact absurd hmarker (Key.below_ne_marker (hr.apart hdirectory).separator_not_mem _ rest)
  · intro b' hb'
    refine ⟨?_, hb'⟩
    rw [h.keys_eq, List.map_append]
    simp

/-- One round of the loop moves the first key left, or it stops the move. -/
theorem ensures_visit (hloud : Loud fails)
    (hr : Renamable suffix overwrite b₀.contents source destination)
    (hdirectory : b₀.contents source = none) {cancel : Option Token}
    (h : Remaining suffix b₀.contents source destination (b₀.keysUnder (source ++ "/"))
      (key :: left) record b) :
    (visit source destination cancel key).Ensures (Bucket.environment fails)
      (Sends suffix b₀.contents source destination)
      (Walk.Ends (fun _ => Remaining suffix b₀.contents source destination
        (b₀.keysUnder (source ++ "/")) left)
        (StoppedAt suffix b₀.contents source destination) endless) record b := by
  refine Walk.ensures_bind (Walk.ensures_ofAction (Action.ensures_checkCancelled ?_ ?_))
  · exact ensures_moveNext hloud hr hdirectory h
  · intro _
    exact ⟨_, rfl, Or.inl ⟨rfl, h.orderly⟩⟩

/-- The objects of a directory in the order in which they move: those below it in the order of their
keys, then the marker. -/
def objectsOf (suffix : String) (source : Key) (b : Bucket) : List Key :=
  b.keysUnder (source ++ "/") ++
    if (b.contents (source ++ suffix)).isSome then [source ++ suffix] else []

/-- The walk over the directory was given up, since its page limit was too small. -/
def GivenUp (suffix : String) (source destination : Key) (pageLimit : Nat) (b₀ b : Bucket) : Prop :=
  pageLimit < (b₀.keysUnder (source ++ "/")).length + 2 ∧
    ∃ moved, Orderly suffix b₀.contents source destination moved none b.contents

/-- The loop moves every object below the directory, or it stops. -/
theorem ensures_below (hloud : Loud fails) {pageLimit : Nat} {pageSize : Value}
    {cancel : Option Token} (hr : Renamable suffix overwrite b₀.contents source destination)
    (hdirectory : b₀.contents source = none) :
    ((Listing.start (Key.directoryPrefix source) true pageSize cancel).walk
      (fun chunk => chunk.keys.forM (visit source destination cancel)) pageLimit).Ensures
      (Bucket.environment fails) (Sends suffix b₀.contents source destination)
      (Walk.Ends (fun _ => Remaining suffix b₀.contents source destination
        (b₀.keysUnder (source ++ "/")) [])
        (StoppedAt suffix b₀.contents source destination)
        (GivenUp suffix source destination pageLimit b₀)) [] b₀ := by
  rw [Key.directoryPrefix_eq hr.source_ne_root]
  refine Listing.ensures_walk ?_ ?_ ?_ ?_ ?_ ⟨rfl, .start⟩
  · intro left record b h
    exact h.keysUnder_eq hr hdirectory
  · intro left record b request h
    exact sends_of_orderly h.orderly fun a image => by rintro ⟨⟩
  · intro key left record b h
    exact ensures_visit hloud hr hdirectory h
  · intro left record b failure h hfailure _
    exact ⟨failure, rfl, Or.inl ⟨isInterruption_of_query (Or.inr hfailure), h.orderly⟩⟩
  · intro hpages left record b h
    exact ⟨hpages, record, h.orderly⟩

/-- The last step moves the marker, if there is one. -/
theorem ensures_markerStep (hloud : Loud fails)
    (hr : Renamable suffix overwrite b₀.contents source destination)
    (hdirectory : b₀.contents source = none)
    (h : Remaining suffix b₀.contents source destination (b₀.keysUnder (source ++ "/")) []
      record b) :
    (markerStep suffix source destination).Ensures (Bucket.environment fails)
      (Sends suffix b₀.contents source destination)
      (Walk.Ends
        (fun _ record b => record.map (·.1) = objectsOf suffix source b₀ ∧
          Orderly suffix b₀.contents source destination record none b.contents)
        (StoppedAt suffix b₀.contents source destination) endless) record b := by
  have hmarker : Relocates suffix b₀.contents source destination (source ++ suffix)
      (destination ++ suffix) := .marker hdirectory
  have hrecord : record.map (·.1) = b₀.keysUnder (source ++ "/") := by
    rw [h.keys_eq, List.append_nil]
  -- only keys below the source are on record, and the marker is none of them
  have hnew : ∀ image, (source ++ suffix, image) ∉ record := by
    intro image hm
    have hkey : source ++ suffix ∈ b₀.keysUnder (source ++ "/") := by
      rw [← hrecord]
      exact List.mem_map.2 ⟨_, hm, rfl⟩
    obtain ⟨-, rest, heq⟩ := Bucket.mem_keysUnder.1 hkey
    exact Key.below_ne_marker (hr.apart hdirectory).separator_not_mem _ rest heq.symm
  have hkept : b.contents (source ++ suffix) = b₀.contents (source ++ suffix) :=
    h.orderly.source_kept (h.orderly.isFresh hr hmarker hnew)
  unfold objectsOf
  refine Walk.ensures_bind (Walk.ensures_ofAction
    (Directory.ensures_markerStatus hloud hr.source_ne_root ?_ ?_ ?_ ?_))
  · intro q hq
    apply sends_of_orderly h.orderly
    rintro a image rfl
    exact hq
  · intro object hobject
    have hpresent : b₀.contents (source ++ suffix) ≠ none := by
      rw [← hkept, Bucket.contents_of_find? hobject]
      exact Option.some_ne_none _
    refine Walk.ensures_bind (Walk.ensures_ofAction ?_)
    rw [Key.marker_eq hr.source_ne_root]
    refine Walk.ensures_bind (Walk.ensures_ofAction ?_)
    rw [Key.marker_eq hr.destination_ne_root]
    apply ensures_orderlyStep hloud hr hdirectory h.orderly hmarker hpresent hnew
    · -- everything below the source is on record already
      intro _ rest hrest
      have hkey := Bucket.mem_keysUnder.2 ⟨hrest, rest, rfl⟩
      rw [← hrecord] at hkey
      obtain ⟨⟨a, image⟩, hm, rfl⟩ := List.mem_map.1 hkey
      exact ⟨image, hm⟩
    · intro b' hb'
      refine ⟨?_, hb'⟩
      rw [List.map_append, hrecord, if_pos (Option.isSome_iff_ne_none.2 hpresent)]
      rfl
  · intro hobject
    rw [← Bucket.contents_eq_none, hkept] at hobject
    refine Walk.ensures_pure ⟨?_, h.orderly⟩
    rw [hrecord, hobject]
    exact (List.append_nil _).symm
  · intro failure hkind _
    exact ⟨failure, rfl, Or.inl ⟨isInterruption_of_query (Or.inl hkind), h.orderly⟩⟩

/-- The program `contents` moves every object of a directory in order, or it stops. -/
theorem ensures_contents (hloud : Loud fails) {settings : Settings} {pageLimit : Nat}
    {cancel : Option Token}
    (hr : Renamable settings.folderSuffix overwrite b₀.contents source destination)
    (hdirectory : b₀.contents source = none) :
    (contents settings pageLimit source destination cancel).Ensures (Bucket.environment fails)
      (Sends settings.folderSuffix b₀.contents source destination)
      (Walk.Ends
        (fun _ record b => record.map (·.1) = objectsOf settings.folderSuffix source b₀ ∧
          Orderly settings.folderSuffix b₀.contents source destination record none b.contents)
        (StoppedAt settings.folderSuffix b₀.contents source destination)
        (GivenUp settings.folderSuffix source destination pageLimit b₀)) [] b₀ := by
  refine Walk.ensures_bind ((ensures_below hloud hr hdirectory).mono ?_)
  rintro (_ | ⟨fault | _, record⟩) b hend
  · exact hend
  · exact hend
  · refine Walk.ensures_bind (Walk.ensures_ofAction (Action.ensures_checkCancelled ?_ ?_))
    · exact ensures_markerStep hloud hr hdirectory hend
    · intro _
      exact ⟨_, rfl, Or.inl ⟨rfl, hend.orderly⟩⟩

/-- The program `directory` moves every object of a directory in order, or it stops with an exact
report. -/
theorem ensures_directory (hloud : Loud fails) {settings : Settings} {pageLimit : Nat}
    {cancel : Option Token} {post : Option (Except Fault Moved) → Bucket → Prop}
    (hr : Renamable settings.folderSuffix overwrite b₀.contents source destination)
    (hdirectory : b₀.contents source = none)
    (hdone : ∀ pairs b, pairs.map (·.1) = objectsOf settings.folderSuffix source b₀ →
      Orderly settings.folderSuffix b₀.contents source destination pairs none b.contents →
      post (some (.ok ⟨source, destination, pairs⟩)) b)
    (hstop : ∀ failure b,
      Stopped settings.folderSuffix b₀.contents source destination failure b.contents →
      post (some (.error (.known failure))) b)
    (hendless : ∀ b, GivenUp settings.folderSuffix source destination pageLimit b₀ b →
      post none b) :
    (directory settings pageLimit source destination cancel).Ensures (Bucket.environment fails)
      (Sends settings.folderSuffix b₀.contents source destination) post b₀ := by
  refine Action.ensures_bind (Walk.ensures_collect ((ensures_contents hloud hr hdirectory).mono ?_))
  rintro (_ | ⟨fault | _, record⟩) b hend
  · exact hendless b hend
  · obtain ⟨failure, rfl, ⟨hinterrupted, horderly⟩ | ⟨hother, hstopped⟩⟩ := hend
    · show Action.Ensures _ _ _ (if isInterruption failure && !record.isEmpty then _ else _) b
      rw [hinterrupted, Bool.true_and]
      -- an interruption is reported as a partial move only if something has moved
      split
      next hmoved => exact hstop _ b (.between rfl horderly)
      next hempty =>
        obtain rfl : record = [] := by simpa using hempty
        apply hstop failure b
        rw [horderly.toProgress.eq_before]
        refine .unchanged fun report hkind => ?_
        unfold isInterruption at hinterrupted
        rw [hkind] at hinterrupted
        cases hinterrupted
    · show Action.Ensures _ _ _ (if isInterruption failure && !record.isEmpty then _ else _) b
      rw [hother, Bool.false_and]
      exact hstop failure b hstopped
  · exact hdone record b hend.1 hend.2

end Directory

end BucketTree.Move
