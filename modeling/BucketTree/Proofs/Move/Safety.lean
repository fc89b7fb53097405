import BucketTree.Proofs.Move.Rename
import BucketTree.Proofs.Store.Schedule

/-!
# Safety of renames

A rename that returns has moved each object of the source to its new key and changed nothing else
(`rename_completed`). A rename that fails has changed nothing, or it reports exactly what it has
changed (`rename_accounted`). In every state in between, where the program may crash, all bytes are
at their old or their new key, and a directory keeps its marker until the rest of it has moved
(`rename_crash_safe`). The last two hold for any faults other than absences.
-/

set_option autoImplicit false

namespace BucketTree

/-- The old and the new key of a copy. -/
def Request.copyEnds? : Request → Option (Key × Key)
  | .copy key image => some (key, image)
  | _ => none

theorem Request.copyEnds?_eq_some {request : Request} {key image : Key}
    (h : request.copyEnds? = some (key, image)) : request = .copy key image := by
  cases request <;> cases h
  rfl

/-- The contents and the result of a rename that returned. -/
structure RenameCompleted (t : Tree) (sourcePath destinationPath : Value) (before : Bucket)
    (moved : Moved) (after : Bucket) : Prop where
  source_resolves : t.resolve sourcePath = .ok moved.source
  destination_resolves : t.resolve destinationPath = .ok moved.destination
  /-- Each object of the source is at its new key and no longer at its old one. -/
  objects_moved : ∀ key image,
    Relocates t.suffix before.contents moved.source moved.destination key image →
      before.contents key ≠ none →
        after.contents key = none ∧ after.contents image = before.contents key
  /-- Every other key is unchanged. -/
  others_kept : ∀ key,
    (∀ a image, Relocates t.suffix before.contents moved.source moved.destination a image →
      before.contents a ≠ none → key ≠ a ∧ key ≠ image) →
      after.contents key = before.contents key
  /-- Different keys have different new keys. -/
  images_distinct : ∀ a b image,
    Relocates t.suffix before.contents moved.source moved.destination a image →
      Relocates t.suffix before.contents moved.source moved.destination b image → a = b
  /-- The new keys of the objects of a directory were free. -/
  images_free : before.contents moved.source = none → ∀ key image,
    Relocates t.suffix before.contents moved.source moved.destination key image →
      before.contents image = none
  /-- Each pair relates a key to its new key. -/
  pairs_relocate : ∀ key image, (key, image) ∈ moved.pairs →
    Relocates t.suffix before.contents moved.source moved.destination key image
  pairs_file : before.contents moved.source ≠ none →
    moved.pairs = [(moved.source, moved.destination)]
  /-- The pairs are in the order of the keys, with the marker last. -/
  pairs_directory : before.contents moved.source = none →
    moved.pairs.map (·.1) = Move.objectsOf t.suffix moved.source before

namespace Tree

variable {t : Tree} {overwrite : Bool} {sourcePath destinationPath : Value}

/-- Every object of the source has moved. -/
theorem mem_pairs_of_relocates {before : Bucket} {source destination key image : Key}
    {pairs : List (Key × Key)} {after : Contents}
    (hr : Renamable t.suffix overwrite before.contents source destination)
    (h : Orderly t.suffix before.contents source destination pairs none after)
    (hpairs : before.contents source ≠ none → pairs = [(source, destination)])
    (hobjects : before.contents source = none →
      pairs.map (·.1) = Move.objectsOf t.suffix source before)
    (hrelocates : Relocates t.suffix before.contents source destination key image)
    (hpresent : before.contents key ≠ none) : (key, image) ∈ pairs := by
  have hmem : ∀ {a b : Key}, Relocates t.suffix before.contents source destination a b →
      a ∈ pairs.map (·.1) → (a, b) ∈ pairs := by
    intro a b hab ha
    obtain ⟨⟨a', b'⟩, hm, rfl⟩ := List.mem_map.1 ha
    rwa [(hab.source_eq_iff (h.of_mem hm).1 hr.apart).1 rfl]
  apply hmem hrelocates
  cases hrelocates with
  | file hsource =>
      rw [hpairs hsource]
      exact List.mem_singleton.2 rfl
  | below hsource rest =>
      rw [hobjects hsource]
      exact List.mem_append_left _ (Bucket.mem_keysUnder.2 ⟨hpresent, rest, rfl⟩)
  | marker hsource =>
      rw [hobjects hsource]
      apply List.mem_append_right _
      rw [if_pos (Option.isSome_iff_ne_none.2 hpresent)]
      exact List.mem_singleton.2 rfl

theorem completed_of_orderly {before after : Bucket} {source destination : Key}
    {pairs : List (Key × Key)}
    (hrenames : Renames t overwrite sourcePath destinationPath before.contents source destination)
    (h : Orderly t.suffix before.contents source destination pairs none after.contents)
    (hfile : before.contents source ≠ none → pairs = [(source, destination)])
    (hdirectory : before.contents source = none →
      pairs.map (·.1) = Move.objectsOf t.suffix source before) :
    RenameCompleted t sourcePath destinationPath before ⟨source, destination, pairs⟩ after := by
  have hr := hrenames.renamable
  refine ⟨hrenames.source_resolves, hrenames.destination_resolves, ?_, ?_, ?_, ?_, ?_, hfile,
    hdirectory⟩
  · intro key image hrelocates hpresent
    have hm := mem_pairs_of_relocates hr h hfile hdirectory hrelocates hpresent
    exact ⟨h.gone key image hm, h.arrived key image hm⟩
  · intro key hother
    apply h.kept key
    · intro a image hm
      exact hother a image (h.relocates a image (Or.inl hm)) (h.present a image (Or.inl hm))
    · intro a image hc
      cases hc
  · intro a b image ha hb
    exact (ha.source_eq_iff hb hr.apart).2 rfl
  · intro hsource key image hrelocates
    exact hr.image_free hsource hrelocates
  · intro key image hm
    exact h.relocates key image (Or.inl hm)

theorem RenameEnds.completed {before after : Bucket} {r : Option (Except Fault Moved)}
    {moved : Moved} (h : RenameEnds t overwrite sourcePath destinationPath before r after)
    (hr : r = some (.ok moved)) :
    RenameCompleted t sourcePath destinationPath before moved after := by
  cases h with
  | refused hreport => cases hr
  | stopped hrenames hstopped => cases hr
  | file hrenames hsource horderly =>
      cases hr
      exact completed_of_orderly hrenames horderly (fun _ => rfl) fun hnone => absurd hnone hsource
  | directory hrenames hsource hpairs horderly =>
      cases hr
      exact completed_of_orderly hrenames horderly (fun hfile => absurd hsource hfile)
        fun _ => hpairs
  | givenUp hrenames hgivenUp => cases hr

/-- The object of each copy that a rename sends has not moved yet, and its new key is unchanged. -/
theorem RenameSends.copy {before b : Bucket} {key image : Key}
    (h : RenameSends t overwrite sourcePath destinationPath before (.copy key image) b) :
    before.contents key ≠ none ∧ b.contents key = before.contents key ∧
      b.contents image = before.contents image := by
  rcases h with ⟨hquery, -⟩ | ⟨source, destination, hrenames, moved, copied, horderly, hcopy⟩
  · exact absurd hquery id
  · obtain ⟨rfl, hrelocates, hpresent, hnew⟩ := hcopy key image rfl
    have hfresh := horderly.isFresh hrenames.renamable hrelocates hnew
    exact ⟨hpresent, horderly.source_kept hfresh, horderly.image_kept hfresh⟩

/-- On a store in memory, a rename has an outcome if the page limit exceeds the number of keys by at
least two. Each copy that it sends is of an object that has not moved yet, and a rename that returns
has moved exactly the objects of the source. -/
theorem rename_completed (t : Tree) (sourcePath destinationPath : Value) (cancel : Option Token)
    (overwrite : Bool) (m : Memory) :
    ((m.bucket t.bucket).keys.length + 2 ≤ t.pageLimit →
      ((t.rename sourcePath destinationPath cancel overwrite).perform
        (Memory.backend t.bucket) m).1 ≠ none) ∧
    (∀ key image m', (.copy key image, m') ∈
        (t.rename sourcePath destinationPath cancel overwrite).run.sent
          (Memory.backend t.bucket) m →
      (m.bucket t.bucket).contents key ≠ none ∧
        (m'.bucket t.bucket).contents key = (m.bucket t.bucket).contents key ∧
        (m'.bucket t.bucket).contents image = (m.bucket t.bucket).contents image) ∧
    ∀ moved, Action.returned? ((t.rename sourcePath destinationPath cancel overwrite).perform
        (Memory.backend t.bucket) m).1 = some moved →
      RenameCompleted t sourcePath destinationPath (m.bucket t.bucket) moved
        (((t.rename sourcePath destinationPath cancel overwrite).perform
          (Memory.backend t.bucket) m).2.bucket t.bucket) := by
  obtain ⟨hsent, hend⟩ := (ensures_rename Memory.loud_refuses t sourcePath destinationPath cancel
    overwrite (m.bucket t.bucket)).run (Memory.backend_follows t.bucket)
  refine ⟨?_, ?_, ?_⟩
  · -- a walk is given up only when it was granted fewer pages than there were keys, and two
    intro hpages hnone
    rw [hnone] at hend
    cases hend with
    | @givenUp source destination _ hrenames hgivenUp =>
        have hfewer := Bucket.length_keysUnder_le (source ++ "/") (m.bucket t.bucket)
        have hlimit := Nat.lt_of_lt_of_le hgivenUp.1 (Nat.add_le_add_right hfewer 2)
        exact absurd hpages (Nat.not_le.2 hlimit)
  · intro key image m' hm
    exact (hsent _ hm).copy
  · intro moved hmoved
    exact hend.completed (Action.returned?_eq_some hmoved)

/-- The directory `s` of `shelf` moves with the keys below it that no path names, one key on each
page. -/
theorem rename_completed_shelf :
    ((keyByKey.rename "/s" "/t" none false).perform (Memory.backend "b") shelf).1 ≠ none ∧
      RenameCompleted keyByKey "/s" "/t" (shelf.bucket "b")
        ⟨"s", "t", [("s/", "t/"), ("s//b", "t//b"), ("s/a", "t/a"), ("s_$folder$", "t_$folder$")]⟩
        (((keyByKey.rename "/s" "/t" none false).perform
          (Memory.backend "b") shelf).2.bucket "b") ∧
      ∃ m, (.copy "s//b" "t//b", m) ∈
          (keyByKey.rename "/s" "/t" none false).run.sent (Memory.backend "b") shelf ∧
        (shelf.bucket "b").contents "s//b" ≠ none ∧
        (m.bucket "b").contents "s//b" = (shelf.bucket "b").contents "s//b" := by
  obtain ⟨hends, hcopies, hcompleted⟩ := rename_completed keyByKey "/s" "/t" none false shelf
  have hreturned : Action.returned? ((keyByKey.rename "/s" "/t" none false).perform
      (Memory.backend "b") shelf).1 = some ⟨"s", "t", [("s/", "t/"), ("s//b", "t//b"),
        ("s/a", "t/a"), ("s_$folder$", "t_$folder$")]⟩ := by decide +kernel
  have hcopied : ("s//b", "t//b") ∈ ((keyByKey.rename "/s" "/t" none false).run.sent
      (Memory.backend "b") shelf).filterMap fun e => e.1.copyEnds? := by decide +kernel
  refine ⟨hends (by decide +kernel), hcompleted _ hreturned, ?_⟩
  obtain ⟨⟨request, m⟩, hsent, hcopy⟩ := List.mem_filterMap.1 hcopied
  obtain rfl := Request.copyEnds?_eq_some hcopy
  obtain ⟨hpresent, hkept, -⟩ := hcopies _ _ m hsent
  exact ⟨m, hsent, hpresent, hkept⟩

end Tree

/-! ## Moves that stop -/

/-- The report of a stopped move is exact. -/
structure MoveReport.Accounts (report : MoveReport) (relocates : Key → Key → Prop)
    (before after : Contents) : Prop where
  /-- The objects reported as moved are at their new keys and no longer at their old ones. -/
  moved : ∀ a b, (a, b) ∈ report.moved →
    relocates a b ∧ before a ≠ none ∧ after a = none ∧ after b = before a
  /-- The object whose move failed is still at its old key. -/
  failed_kept : ∀ key, report.failedKey = some key →
    before key ≠ none ∧ after key = before key
  /-- Its new key has a copy exactly if the report says so, and is unchanged otherwise. -/
  failed_copied : ∀ key, report.failedKey = some key → ∃ image, relocates key image ∧
    (report.destinationPresent = true ↔ after image = before key) ∧
    (report.destinationPresent = false → after image = before image)
  /-- Every other key is unchanged. -/
  others_kept : ∀ key, (∀ a b, (a, b) ∈ report.moved → key ≠ a ∧ key ≠ b) →
    (∀ a b, report.failedKey = some a → relocates a b → key ≠ a ∧ key ≠ b) →
      after key = before key

namespace Move

variable {suffix : String} {overwrite : Bool} {before after : Contents} {source destination : Key}
  {failure : Failure} {report : MoveReport}

/-- A move that stops without a report has changed nothing. -/
theorem Stopped.eq_before (h : Stopped suffix before source destination failure after)
    (hreport : (Fault.known failure).moveReport? = none) : after = before := by
  have hnot : ∀ report, failure.kind ≠ .partialMove report := by
    intro report hkind
    obtain ⟨kind, key, cause⟩ := failure
    cases hkind
    cases hreport
  cases h with
  | unchanged hkind => rfl
  | between hkind h => exact absurd hkind (hnot _)
  | beforeCopy hkind h hdirectory himage hpresent hnew => exact absurd hkind (hnot _)
  | afterCopy hkind h hnew => exact absurd hkind (hnot _)

theorem kind_of_moveReport? (hreport : (Fault.known failure).moveReport? = some report) :
    failure.kind = .partialMove report := by
  unfold Fault.moveReport? at hreport
  split at hreport
  next heq =>
    cases heq
    cases hreport
    rfl
  next => cases hreport

/-- The report of a stopped move is exact. -/
theorem Stopped.accounts (hr : Renamable suffix overwrite before source destination)
    (h : Stopped suffix before source destination failure after)
    (hreport : (Fault.known failure).moveReport? = some report) :
    report.Accounts (Relocates suffix before source destination) before after := by
  have hreported := kind_of_moveReport? hreport
  cases h with
  | unchanged hkind => exact absurd hreported (hkind report)
  | between hkind h =>
      rw [hkind] at hreported
      cases hreported
      refine ⟨fun a b => h.of_mem, ?_, ?_, ?_⟩
      · intro key hkey
        cases hkey
      · intro key hkey
        cases hkey
      · intro key hmoved _
        exact h.kept key hmoved fun a b hc => by cases hc
  | @beforeCopy moved key image _ hkind h hdirectory himage hpresent hnew =>
      rw [hkind] at hreported
      cases hreported
      -- the keys of the object are its own, so both are as they were
      have hfresh := h.isFresh hr himage hnew
      have hfree := hr.image_free hdirectory himage
      refine ⟨fun a b => h.of_mem, ?_, ?_, ?_⟩
      · rintro _ ⟨⟩
        exact ⟨hpresent, h.source_kept hfresh⟩
      · rintro _ ⟨⟩
        refine ⟨image, himage, ⟨fun hcopied => absurd hcopied Bool.false_ne_true, ?_⟩,
          fun _ => h.image_kept hfresh⟩
        -- the new key is free, so it holds no copy by chance
        intro hsame
        rw [h.image_kept hfresh, hfree] at hsame
        exact absurd hsame.symm hpresent
      · intro key hmoved _
        exact h.kept key hmoved fun a b hc => by cases hc
  | @afterCopy moved key image _ hkind h hnew =>
      rw [hkind] at hreported
      cases hreported
      have himage := h.relocates key image (Or.inr rfl)
      refine ⟨fun a b => h.of_mem, ?_, ?_, ?_⟩
      · rintro _ ⟨⟩
        exact ⟨h.present key image (Or.inr rfl), h.copied_kept hr hnew⟩
      · rintro _ ⟨⟩
        refine ⟨image, himage, ⟨fun _ => h.copied_arrived key image rfl, fun _ => rfl⟩, ?_⟩
        intro habsent
        cases habsent
      · intro other hmoved hfailed
        apply h.kept other hmoved
        rintro a b hc
        cases hc
        exact (hfailed key image rfl himage).2

end Move

namespace Tree

/-- Under any loud schedule, a rename that fails without a report has changed nothing, and a report
of it is exact. -/
theorem rename_accounted (t : Tree) (sourcePath destinationPath : Value) (cancel : Option Token)
    (overwrite : Bool) (schedule : Schedule) (hloud : schedule.IsLoud) (s : Schedule.State)
    (fault : Fault)
    (hraised : Action.raised? ((t.rename sourcePath destinationPath cancel overwrite).perform
      (schedule.backend t.bucket) s).1 = some fault) :
    match fault.moveReport? with
    | none =>
        (((t.rename sourcePath destinationPath cancel overwrite).perform
          (schedule.backend t.bucket) s).2.memory.bucket t.bucket).contents =
          (s.memory.bucket t.bucket).contents
    | some report =>
        ∃ source destination, t.resolve sourcePath = .ok source ∧
          t.resolve destinationPath = .ok destination ∧
          report.Accounts
            (Relocates t.suffix (s.memory.bucket t.bucket).contents source destination)
            (s.memory.bucket t.bucket).contents
            (((t.rename sourcePath destinationPath cancel overwrite).perform
              (schedule.backend t.bucket) s).2.memory.bucket t.bucket).contents := by
  obtain ⟨-, hend⟩ := (ensures_rename Schedule.loud_failsLoudly t sourcePath destinationPath cancel
    overwrite (s.memory.bucket t.bucket)).run (Schedule.backend_follows hloud t.bucket)
  rw [Action.raised?_eq_some hraised] at hend
  generalize ((t.rename sourcePath destinationPath cancel overwrite).perform
    (schedule.backend t.bucket) s).2.memory.bucket t.bucket = after at hend ⊢
  cases hend with
  | refused hreport =>
      rw [hreport]
  | @stopped source destination failure _ hrenames hstopped =>
      cases hreport : (Fault.known failure).moveReport? with
      | none => exact hstopped.eq_before hreport
      | some report =>
          exact ⟨source, destination, hrenames.source_resolves, hrenames.destination_resolves,
            hstopped.accounts hrenames.renamable hreport⟩

/-- The second object is copied and its deletion is refused: the report names the first pair as
moved and the second key as failed, with its copy present. -/
theorem rename_accounted_protected :
    ∃ fault, Action.raised? ((keyByKey.rename "/s" "/t" none false).perform
        ((Schedule.protecting "s//b").backend "b") ⟨shelf, []⟩).1 = some fault ∧
      fault.moveReport? = some ⟨some "t", [("s/", "t/")], some "s//b", true, true⟩ ∧
      MoveReport.Accounts ⟨some "t", [("s/", "t/")], some "s//b", true, true⟩
        (Relocates "_$folder$" (shelf.bucket "b").contents "s" "t") (shelf.bucket "b").contents
        (((keyByKey.rename "/s" "/t" none false).perform
          ((Schedule.protecting "s//b").backend "b") ⟨shelf, []⟩).2.memory.bucket
            "b").contents := by
  have hreported : (Action.raised? ((keyByKey.rename "/s" "/t" none false).perform
      ((Schedule.protecting "s//b").backend "b") ⟨shelf, []⟩).1).bind Fault.moveReport? =
        some ⟨some "t", [("s/", "t/")], some "s//b", true, true⟩ := by decide +kernel
  obtain ⟨fault, hraised, hreport⟩ := Option.bind_eq_some_iff.1 hreported
  have haccounts := rename_accounted keyByKey "/s" "/t" none false (Schedule.protecting "s//b")
    (Schedule.isLoud_protecting "s//b") ⟨shelf, []⟩ fault hraised
  rw [hreport] at haccounts
  obtain ⟨source, destination, hsource, hdestination, haccounts⟩ := haccounts
  cases hsource
  cases hdestination
  exact ⟨fault, hraised, hreport, haccounts⟩

end Tree

/-! ## States on the way -/

/-- The guarantees for every state of a rename in which it may crash. -/
structure CrashSafe (t : Tree) (sourcePath destinationPath : Value) (overwrite : Bool)
    (before after : Contents) : Prop where
  /-- All bytes are at their old key or at the new one, except those of a file that the source has
  just replaced. -/
  bytes_safe : ∀ key bytes, before key = some bytes →
    after key = some bytes ∨
      ∃ source destination, t.resolve sourcePath = .ok source ∧
        t.resolve destinationPath = .ok destination ∧
        ((∃ image, Relocates t.suffix before source destination key image ∧
            after image = some bytes) ∨
          (overwrite = true ∧ before source ≠ none ∧ key = destination ∧
            after destination = before source))
  /-- The marker of a directory is unchanged while an object below the directory is left. -/
  marker_kept : ∀ source rest, t.resolve sourcePath = .ok source → before source = none →
    before (source ++ "/" ++ rest) ≠ none → after (source ++ "/" ++ rest) ≠ none →
      after (source ++ t.suffix) = before (source ++ t.suffix)

namespace Tree

variable {t : Tree} {overwrite : Bool} {sourcePath destinationPath : Value}

theorem crashSafe_start (before : Contents) :
    CrashSafe t sourcePath destinationPath overwrite before before :=
  ⟨fun _ _ hkey => Or.inl hkey, fun _ _ _ _ _ _ => rfl⟩

theorem crashSafe_of_orderly {before after : Contents} {source destination : Key}
    {moved : List (Key × Key)} {copied : Option (Key × Key)}
    (hrenames : Renames t overwrite sourcePath destinationPath before source destination)
    (h : Orderly t.suffix before source destination moved copied after) :
    CrashSafe t sourcePath destinationPath overwrite before after := by
  constructor
  · intro key bytes hkey
    exact (h.bytes_safe hrenames.renamable hkey).imp id fun hmoved =>
      ⟨source, destination, hrenames.source_resolves, hrenames.destination_resolves, hmoved⟩
  · intro source' rest hresolve hdirectory hbefore hafter
    rw [hrenames.source_resolves] at hresolve
    cases hresolve
    exact h.marker_kept hrenames.renamable hdirectory hbefore hafter

theorem RenameSends.crashSafe {before b : Bucket} {request : Request}
    (h : RenameSends t overwrite sourcePath destinationPath before request b) :
    CrashSafe t sourcePath destinationPath overwrite before.contents b.contents := by
  rcases h with ⟨-, rfl⟩ | ⟨source, destination, hrenames, moved, copied, horderly, -⟩
  · exact crashSafe_start b.contents
  · exact crashSafe_of_orderly hrenames horderly

theorem RenameEnds.crashSafe {before b : Bucket} {r : Option (Except Fault Moved)}
    (h : RenameEnds t overwrite sourcePath destinationPath before r b) :
    CrashSafe t sourcePath destinationPath overwrite before.contents b.contents := by
  cases h with
  | refused hreport => exact crashSafe_start before.contents
  | stopped hrenames hstopped =>
      generalize b.contents = after at hstopped ⊢
      cases hstopped with
      | unchanged hkind => exact crashSafe_start before.contents
      | between hkind h => exact crashSafe_of_orderly hrenames h
      | beforeCopy hkind h hdirectory himage hpresent hnew =>
          exact crashSafe_of_orderly hrenames h
      | afterCopy hkind h hnew => exact crashSafe_of_orderly hrenames h
  | file hrenames hsource horderly => exact crashSafe_of_orderly hrenames horderly
  | directory hrenames hsource hpairs horderly => exact crashSafe_of_orderly hrenames horderly
  | givenUp hrenames hgivenUp =>
      obtain ⟨-, moved, horderly⟩ := hgivenUp
      exact crashSafe_of_orderly hrenames horderly

/-- In every state of a rename under a loud schedule, before each of its requests and at its end,
all bytes are safe, and the marker of the source is there until the rest of the directory has
moved. -/
theorem rename_crash_safe (t : Tree) (sourcePath destinationPath : Value) (cancel : Option Token)
    (overwrite : Bool) (schedule : Schedule) (hloud : schedule.IsLoud) (s : Schedule.State) :
    ∀ s' ∈ (t.rename sourcePath destinationPath cancel overwrite).run.states
        (schedule.backend t.bucket) s,
      CrashSafe t sourcePath destinationPath overwrite (s.memory.bucket t.bucket).contents
        (s'.memory.bucket t.bucket).contents := by
  have hrename := ensures_rename Schedule.loud_failsLoudly t sourcePath destinationPath cancel
    overwrite (s.memory.bucket t.bucket)
  refine Program.Ensures.forall_states (Schedule.backend_follows hloud t.bucket) hrename
    (fun b => CrashSafe t sourcePath destinationPath overwrite
      (s.memory.bucket t.bucket).contents b.contents) ?_ ?_
  · intro request b hsends
    exact hsends.crashSafe
  · intro r b hends
    exact hends.crashSafe

/-- A state in which one object has moved and the next one is at both of its keys. -/
theorem rename_crash_safe_protected :
    ∃ s ∈ (keyByKey.rename "/s" "/t" none false).run.states
        ((Schedule.protecting "s//b").backend "b") ⟨shelf, []⟩,
      (s.memory.bucket "b").keys = ["s//b", "s/a", "s_$folder$", "st", "t/", "t//b"] ∧
      CrashSafe keyByKey "/s" "/t" false (shelf.bucket "b").contents
        (s.memory.bucket "b").contents := by
  have hkeys : ["s//b", "s/a", "s_$folder$", "st", "t/", "t//b"] ∈
      ((keyByKey.rename "/s" "/t" none false).run.states
        ((Schedule.protecting "s//b").backend "b") ⟨shelf, []⟩).map
          fun s => (s.memory.bucket "b").keys := by decide +kernel
  obtain ⟨s, hstate, hkeys⟩ := List.mem_map.1 hkeys
  exact ⟨s, hstate, hkeys, rename_crash_safe keyByKey "/s" "/t" none false
    (Schedule.protecting "s//b") (Schedule.isLoud_protecting "s//b") ⟨shelf, []⟩ s hstate⟩

end Tree

end BucketTree
