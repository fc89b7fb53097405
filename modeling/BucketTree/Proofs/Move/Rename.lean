import BucketTree.Proofs.Move.Directory

/-!
# Renames

The checks of a rename make its ends `Renamable` before the first copy, and the move that follows is
orderly. `ensures_rename_cases` states the four courses of a rename, and `ensures_rename` its ends,
on any store that answers by its contents or fails loudly.
-/

set_option autoImplicit false

namespace BucketTree

namespace Move

variable {suffix : String} {overwrite : Bool} {fails : Request → Fault → Prop} {b₀ : Bucket}
  {source destination : Key}

/-- Moving a file keeps the move orderly, or it stops with an exact report. -/
theorem ensures_orderlyFile (hloud : Loud fails)
    {post : Option (Except Fault Moved) → Bucket → Prop}
    (hr : Renamable suffix overwrite b₀.contents source destination)
    (hsource : b₀.contents source ≠ none)
    (hdone : ∀ b, Orderly suffix b₀.contents source destination [(source, destination)] none
      b.contents → post (some (.ok ⟨source, destination, [(source, destination)]⟩)) b)
    (hstop : ∀ failure b, Stopped suffix b₀.contents source destination failure b.contents →
      post (some (.error (.known failure))) b) :
    (file source destination).Ensures (Bucket.environment fails)
      (Sends suffix b₀.contents source destination) post b₀ := by
  have hstart : Orderly suffix b₀.contents source destination [] none b₀.contents := .start
  have hnew : ∀ image, (source, image) ∉ ([] : List (Key × Key)) := fun _ => List.not_mem_nil
  -- the state between the copy and the deletion, which two of the five cases meet
  have hhalf := hstart.copy hr (.file hsource) hsource hnew
  refine ensures_file hloud hr.ne hsource ?_ ?_ ?_ ?_ ?_
  · intro q hq
    refine ⟨[], none, hstart, ?_⟩
    rintro a image rfl
    obtain ⟨rfl, rfl⟩ := hq
    exact ⟨rfl, .file hsource, hsource, hnew⟩
  · intro b hb
    rw [← hb] at hhalf
    exact sends_of_orderly hhalf fun a image => by rintro ⟨⟩
  · intro b hb
    apply hdone b
    rw [hb]
    exact hhalf.delete hr hnew fun hdirectory => absurd hdirectory hsource
  · intro failure _ hkind
    refine hstop failure b₀ (.unchanged fun report heq => ?_)
    rw [hkind] at heq
    cases heq
  · intro b failure _ hb hkind
    rw [← hb] at hhalf
    exact hstop failure b (.afterCopy hkind hhalf hnew)

end Move

namespace Tree

variable {t : Tree} {fails : Request → Fault → Prop} {sends : Request → Bucket → Prop} {b : Bucket}
  {source destination : Key}

/-- The program `checkEnds` accepts two different keys other than the root, the second of which does
not lie below the first. -/
theorem checkEnds_eq_ok {sourcePath destinationPath : Value}
    (h : checkEnds sourcePath destinationPath source destination = .ok ()) :
    source ≠ Key.root ∧ destination ≠ Key.root ∧ source ≠ destination ∧
      ∀ rest, destination ≠ source ++ "/" ++ rest := by
  unfold checkEnds at h
  split at h
  next => cases h
  next hroots =>
    split at h
    next => cases h
    next hsame =>
      split at h
      next => cases h
      next hbelow =>
        simp only [Bool.or_eq_true, beq_iff_eq, not_or] at hroots
        have hne : source ≠ destination := fun heq => hsame (beq_iff_eq.2 heq)
        refine ⟨hroots.1, hroots.2, hne, ?_⟩
        rintro rest rfl
        apply hbelow
        unfold Key.isAncestor
        rw [Key.directoryPrefix_eq hroots.1, Text.beginsWith_append, Bool.true_and]
        exact bne_iff_ne.2 hne.symm

/-- The conditions on a destination that is not taken. -/
structure IsFree (suffix : String) (mayReplace : Bool) (contents : Contents) (key : Key) :
    Prop where
  replaced : contents key ≠ none → mayReplace = true
  not_directory : contents key = none → ¬ Directory.IsAt suffix key contents

theorem ensures_isTaken (hloud : Loud fails) {path : Value} {key : Key} {mayReplace : Bool}
    {post : Option (Except Fault Bool) → Bucket → Prop} (hresolve : t.resolve path = .ok key)
    (hroot : key ≠ Key.root) (hask : ∀ q : Request, q.isQuery → sends q b)
    (hfree : IsFree t.suffix mayReplace b.contents key → post (some (.ok false)) b)
    (htaken : ¬ IsFree t.suffix mayReplace b.contents key → post (some (.ok true)) b)
    (hfail : ∀ failure, IsQueryFailure failure → QueryMayFail fails (.int 1) none →
      post (some (.error (.known failure))) b) :
    (t.isTaken path mayReplace).Ensures (Bucket.environment fails) sends post b := by
  refine Action.ensures_bind (ensures_isFile hloud hresolve hroot hask ?_ ?_ hfail)
  · intro hfile
    cases mayReplace with
    | true => exact Action.ensures_pure (hfree ⟨fun _ => rfl, fun hnone => absurd hnone hfile⟩)
    | false =>
        exact Action.ensures_pure (htaken fun hfree => Bool.false_ne_true (hfree.replaced hfile))
  · intro hnone
    refine ensures_isDirectory hloud hresolve hask
      (fun hdirectory => htaken fun hfree => hfree.not_directory hnone hdirectory) ?_ hfail
    intro hdirectory
    exact hfree ⟨fun hfile => absurd hnone hfile, fun _ => hdirectory⟩

/-- The keys of the two paths, or the fault that refuses them before any request. -/
def ends (t : Tree) (sourcePath destinationPath : Value) : Except Fault (Key × Key) :=
  match t.resolve sourcePath with
  | .error fault => .error fault
  | .ok source =>
      match t.resolve destinationPath with
      | .error fault => .error fault
      | .ok destination =>
          match checkEnds sourcePath destinationPath source destination with
          | .error refusal => .error (.known (.ofRefusal refusal))
          | .ok _ => .ok (source, destination)

section Ends

variable {sourcePath destinationPath : Value}

theorem ends_eq_ok (h : t.ends sourcePath destinationPath = .ok (source, destination)) :
    t.resolve sourcePath = .ok source ∧ t.resolve destinationPath = .ok destination ∧
      checkEnds sourcePath destinationPath source destination = .ok () := by
  unfold ends at h
  cases hsource : t.resolve sourcePath with
  | error fault => rw [hsource] at h; cases h
  | ok key =>
      cases hdestination : t.resolve destinationPath with
      | error fault => rw [hsource, hdestination] at h; cases h
      | ok newKey =>
          rw [hsource, hdestination] at h
          dsimp only at h
          cases hfit : checkEnds sourcePath destinationPath key newKey with
          | error refusal => rw [hfit] at h; cases h
          | ok _ =>
              rw [hfit] at h
              cases h
              exact ⟨rfl, rfl, hfit⟩

theorem ends_eq_error {fault : Fault} (h : t.ends sourcePath destinationPath = .error fault) :
    t.resolve sourcePath = .error fault ∨ t.resolve destinationPath = .error fault ∨
      ∃ refusal, fault = .known (.ofRefusal refusal) := by
  unfold ends at h
  cases hsource : t.resolve sourcePath with
  | error fault => rw [hsource] at h; cases h; exact Or.inl rfl
  | ok key =>
      cases hdestination : t.resolve destinationPath with
      | error fault => rw [hsource, hdestination] at h; cases h; exact Or.inr (Or.inl rfl)
      | ok newKey =>
          rw [hsource, hdestination] at h
          dsimp only at h
          split at h
          · cases h
            exact Or.inr (Or.inr ⟨_, rfl⟩)
          · cases h

/-- The four courses of a rename: its paths are refused, its destination is taken, its source does
not exist, or it moves a file or a directory. The rule holds for every environment that allows no
more answers. -/
theorem ensures_rename_cases {env : Environment Bucket} {cancel : Option Token} {overwrite : Bool}
    {post : Option (Except Fault Moved) → Bucket → Prop} (hloud : Loud fails)
    (hweaker : ∀ {α : Type} {post : Option (Except Fault α) → Bucket → Prop} {a : Action α},
      a.Ensures (Bucket.environment fails) sends post b → a.Ensures env sends post b)
    (hask : ∀ q : Request, q.isQuery → sends q b)
    (hquery : ∀ failure, IsQueryFailure failure → QueryMayFail fails (.int 1) none →
      post (some (.error (.known failure))) b)
    (hrefused : ∀ fault, t.ends sourcePath destinationPath = .error fault →
      post (some (.error fault)) b)
    (htaken : ∀ source destination, t.ends sourcePath destinationPath = .ok (source, destination) →
      ¬ IsFree t.suffix (overwrite && (b.contents source).isSome) b.contents destination →
      post (some (.error (.known
        (.alreadyExists destination (.destinationExists destination))))) b)
    (habsent : ∀ source destination, t.ends sourcePath destinationPath = .ok (source, destination) →
      IsFree t.suffix false b.contents destination → b.contents source = none →
      ¬ Directory.IsAt t.suffix source b.contents →
      post (some (.error (.known (.notFound source (.noRenameSource (Key.toPath source)))))) b)
    (hfile : ∀ source destination, t.ends sourcePath destinationPath = .ok (source, destination) →
      IsFree t.suffix overwrite b.contents destination → b.contents source ≠ none →
      (Move.file source destination).Ensures env sends post b)
    (hdirectory : ∀ source destination,
      t.ends sourcePath destinationPath = .ok (source, destination) →
      IsFree t.suffix false b.contents destination → b.contents source = none →
      Directory.IsAt t.suffix source b.contents →
      (Move.directory t.settings t.pageLimit source destination cancel).Ensures env sends post b) :
    (t.rename sourcePath destinationPath cancel overwrite).Ensures env sends post b := by
  refine Action.ensures_bind (ensures_key ?_)
  cases hsource : t.resolve sourcePath with
  | error fault => exact hrefused fault (by rw [ends, hsource])
  | ok source =>
  refine Action.ensures_bind (ensures_key ?_)
  cases hdestination : t.resolve destinationPath with
  | error fault => exact hrefused fault (by rw [ends, hsource, hdestination])
  | ok destination =>
  refine Action.ensures_bind (Action.ensures_ofPath ?_ ?_)
  swap
  · intro refusal hunfit
    exact hrefused _ (by rw [ends, hsource, hdestination]; dsimp only; rw [hunfit])
  intro _ hfit
  have hends : t.ends sourcePath destinationPath = .ok (source, destination) := by
    rw [ends, hsource, hdestination]
    dsimp only
    rw [hfit]
  have hroot := (checkEnds_eq_ok hfit).2.1
  refine Action.ensures_bind (hweaker (ensures_statusOf hloud (hask _ trivial) ?_ ?_ ?_))
  · -- the source is a file, which may replace a file when `overwrite` is set
    intro object hobject
    have hpresent := Bucket.contents_of_find? hobject
    have htaken := htaken source destination hends
    rw [hpresent, Option.isSome_some] at htaken
    refine Action.ensures_bind (hweaker (ensures_isTaken hloud hdestination hroot hask ?_ htaken
      hquery))
    intro hfree
    rw [Option.isSome_some, Bool.and_true] at hfree
    exact hfile source destination hends hfree (hpresent ▸ Option.some_ne_none _)
  · -- the source is no file, so it has to be a directory, and nothing may be replaced
    intro hobject
    have hnone := Bucket.contents_eq_none.2 hobject
    have htaken := htaken source destination hends
    rw [hnone, Option.isSome_none] at htaken
    refine Action.ensures_bind (hweaker (ensures_isTaken hloud hdestination hroot hask ?_ htaken
      hquery))
    intro hfree
    rw [Option.isSome_none, Bool.and_false] at hfree
    exact Action.ensures_bind (hweaker (Directory.ensures_exists? hloud hask
      (hdirectory source destination hends hfree hnone)
      (habsent source destination hends hfree hnone) hquery))
  · intro failure hkind hfault
    exact hquery failure (Or.inl hkind) (Or.inl ⟨_, hfault⟩)

end Ends

/-- A file may be renamed to a destination that is not taken. -/
theorem renamable_file {suffix : String} {overwrite : Bool} {before : Contents}
    (hsource : before source ≠ none)
    (hends : source ≠ Key.root ∧ destination ≠ Key.root ∧ source ≠ destination ∧
      ∀ rest, destination ≠ source ++ "/" ++ rest)
    (hfree : IsFree suffix overwrite before destination) :
    Renamable suffix overwrite before source destination where
  source_ne_root := hends.1
  destination_ne_root := hends.2.1
  ne := hends.2.2.1
  apart := fun hdirectory => absurd hdirectory hsource
  below_free := fun hdirectory => absurd hdirectory hsource
  marker_free := fun hdirectory => absurd hdirectory hsource
  replaced := fun _ => hfree.replaced

/-- A directory may be renamed to a destination that is not taken; the source does not lie below it,
as the destination would be a directory then. -/
theorem renamable_directory {suffix : String} {overwrite : Bool} {before : Contents}
    (hsource : before source = none) (hdirectory : Directory.IsAt suffix source before)
    (hends : source ≠ Key.root ∧ destination ≠ Key.root ∧ source ≠ destination ∧
      ∀ rest, destination ≠ source ++ "/" ++ rest)
    (hfree : IsFree suffix false before destination)
    (hsuffix : Key.separator ∉ suffix.toList) :
    Renamable suffix overwrite before source destination := by
  obtain ⟨hsourceRoot, hdestinationRoot, hne, hbelow⟩ := hends
  have hnone : before destination = none := by
    by_contra hfile
    cases hfree.replaced hfile
  have hnot := hfree.not_directory hnone
  unfold Directory.IsAt at hnot hdirectory
  rw [Key.directoryPrefix_eq hdestinationRoot] at hnot
  rw [Key.directoryPrefix_eq hsourceRoot] at hdirectory
  have hbelowFree : ∀ rest, before (destination ++ "/" ++ rest) = none := by
    intro rest
    by_contra hrest
    exact hnot (Or.inr (Or.inr ⟨rest, hrest⟩))
  have habove : ∀ rest, source ≠ destination ++ "/" ++ rest := by
    -- the marker of the source, or what lies below it, would lie below the destination
    rintro rest rfl
    rcases hdirectory with hroot | hmarker | ⟨below, hchild⟩
    · exact hsourceRoot hroot
    · exact hmarker (by rw [String.append_assoc]; exact hbelowFree _)
    · apply hchild
      rw [String.append_assoc, String.append_assoc]
      exact hbelowFree _
  exact {
    source_ne_root := hsourceRoot
    destination_ne_root := hdestinationRoot
    ne := hne
    apart := fun _ => ⟨hne, hbelow, habove, hsuffix⟩
    below_free := fun _ => hbelowFree
    marker_free := fun _ => by
      by_contra hmarker
      exact hnot (Or.inr (Or.inl hmarker))
    replaced := fun hfile => absurd hsource hfile }

/-- The keys of the two paths, which are `Renamable`. -/
structure Renames (t : Tree) (overwrite : Bool) (sourcePath destinationPath : Value)
    (before : Contents) (source destination : Key) : Prop where
  source_resolves : t.resolve sourcePath = .ok source
  destination_resolves : t.resolve destinationPath = .ok destination
  renamable : Renamable t.suffix overwrite before source destination

/-- The condition under which a rename sends a request: a query before anything has changed, or a
request of an orderly move. -/
def RenameSends (t : Tree) (overwrite : Bool) (sourcePath destinationPath : Value) (b₀ : Bucket)
    (request : Request) (b : Bucket) : Prop :=
  (request.isQuery ∧ b = b₀) ∨
    ∃ source destination, Renames t overwrite sourcePath destinationPath b₀.contents source
      destination ∧ Move.Sends t.suffix b₀.contents source destination request b

end Tree

/-- The report in a `partialMove` failure. -/
def Fault.moveReport? : Fault → Option MoveReport
  | .known ⟨.partialMove report, _, _⟩ => some report
  | _ => none

namespace Tree

/-- The ends of a rename. -/
inductive RenameEnds (t : Tree) (overwrite : Bool) (sourcePath destinationPath : Value)
    (b₀ : Bucket) : Option (Except Fault Moved) → Bucket → Prop
  /-- The rename was refused before anything has changed. -/
  | refused {fault : Fault} (hreport : fault.moveReport? = none) :
      RenameEnds t overwrite sourcePath destinationPath b₀ (some (.error fault)) b₀
  | stopped {source destination : Key} {failure : Failure} {b : Bucket}
      (hrenames : Renames t overwrite sourcePath destinationPath b₀.contents source destination)
      (hstopped : Move.Stopped t.suffix b₀.contents source destination failure b.contents) :
      RenameEnds t overwrite sourcePath destinationPath b₀ (some (.error (.known failure))) b
  | file {source destination : Key} {b : Bucket}
      (hrenames : Renames t overwrite sourcePath destinationPath b₀.contents source destination)
      (hsource : b₀.contents source ≠ none)
      (horderly : Orderly t.suffix b₀.contents source destination [(source, destination)] none
        b.contents) :
      RenameEnds t overwrite sourcePath destinationPath b₀
        (some (.ok ⟨source, destination, [(source, destination)]⟩)) b
  | directory {source destination : Key} {pairs : List (Key × Key)} {b : Bucket}
      (hrenames : Renames t overwrite sourcePath destinationPath b₀.contents source destination)
      (hsource : b₀.contents source = none)
      (hpairs : pairs.map (·.1) = Move.objectsOf t.suffix source b₀)
      (horderly : Orderly t.suffix b₀.contents source destination pairs none b.contents) :
      RenameEnds t overwrite sourcePath destinationPath b₀
        (some (.ok ⟨source, destination, pairs⟩)) b
  | givenUp {source destination : Key} {b : Bucket}
      (hrenames : Renames t overwrite sourcePath destinationPath b₀.contents source destination)
      (hgivenUp : Move.GivenUp t.suffix source destination t.pageLimit b₀ b) :
      RenameEnds t overwrite sourcePath destinationPath b₀ none b

/-- The refusal of a path carries no report of a move. -/
theorem moveReport?_of_resolve {t : Tree} {path : Value} {fault : Fault}
    (h : t.resolve path = .error fault) : fault.moveReport? = none := by
  rcases refusal_of_resolve h with ⟨misuse, rfl⟩ | ⟨⟨kind, key, cause⟩, rfl, hkind⟩
  · rfl
  · rcases hkind with ⟨code, rfl⟩ | ⟨refused, rfl⟩ <;> rfl

variable {t : Tree} {fails : Request → Fault → Prop} {b₀ : Bucket}

theorem moveReport?_of_ends {sourcePath destinationPath : Value} {fault : Fault}
    (h : t.ends sourcePath destinationPath = .error fault) : fault.moveReport? = none := by
  rcases ends_eq_error h with hsource | hdestination | ⟨refusal, rfl⟩
  · exact moveReport?_of_resolve hsource
  · exact moveReport?_of_resolve hdestination
  · rfl

theorem moveReport?_of_query {failure : Failure} (h : IsQueryFailure failure) :
    (Fault.known failure).moveReport? = none := by
  unfold Fault.moveReport?
  split
  next heq =>
    cases heq
    rcases h with h | h | h <;> cases h
  next => rfl

theorem ensures_fileRename (hloud : Loud fails) {sourcePath destinationPath : Value}
    {overwrite : Bool} {source destination : Key}
    (hrenames : Renames t overwrite sourcePath destinationPath b₀.contents source destination)
    (hsource : b₀.contents source ≠ none) :
    (Move.file source destination).Ensures (Bucket.environment fails)
      (RenameSends t overwrite sourcePath destinationPath b₀)
      (RenameEnds t overwrite sourcePath destinationPath b₀) b₀ := by
  refine Program.Ensures.mono_sends
    (Move.ensures_orderlyFile hloud hrenames.renamable hsource ?_ ?_) ?_
  · intro b horderly
    exact .file hrenames hsource horderly
  · intro failure b hstopped
    exact .stopped hrenames hstopped
  · intro q b hsends
    exact Or.inr ⟨source, destination, hrenames, hsends⟩

theorem ensures_directoryRename (hloud : Loud fails) {sourcePath destinationPath : Value}
    {overwrite : Bool} {source destination : Key} {cancel : Option Token}
    (hrenames : Renames t overwrite sourcePath destinationPath b₀.contents source destination)
    (hsource : b₀.contents source = none) :
    (Move.directory t.settings t.pageLimit source destination cancel).Ensures
      (Bucket.environment fails) (RenameSends t overwrite sourcePath destinationPath b₀)
      (RenameEnds t overwrite sourcePath destinationPath b₀) b₀ := by
  refine Program.Ensures.mono_sends
    (Move.ensures_directory hloud hrenames.renamable hsource ?_ ?_ ?_) ?_
  · intro pairs b hpairs horderly
    exact .directory hrenames hsource hpairs horderly
  · intro failure b hstopped
    exact .stopped hrenames hstopped
  · intro b hgivenUp
    exact .givenUp hrenames hgivenUp
  · intro q b hsends
    exact Or.inr ⟨source, destination, hrenames, hsends⟩

/-- Every rename sends its requests as `RenameSends` says and ends as `RenameEnds` says, on any
store that answers by its contents or fails loudly. -/
theorem ensures_rename (hloud : Loud fails) (t : Tree) (sourcePath destinationPath : Value)
    (cancel : Option Token) (overwrite : Bool) (b₀ : Bucket) :
    (t.rename sourcePath destinationPath cancel overwrite).Ensures (Bucket.environment fails)
      (RenameSends t overwrite sourcePath destinationPath b₀)
      (RenameEnds t overwrite sourcePath destinationPath b₀) b₀ := by
  refine ensures_rename_cases hloud (fun h => h) (fun q hq => Or.inl ⟨hq, rfl⟩) ?_ ?_ ?_ ?_ ?_ ?_
  · exact fun failure hfailure _ => .refused (moveReport?_of_query hfailure)
  · exact fun fault hfault => .refused (moveReport?_of_ends hfault)
  · exact fun _ _ _ _ => .refused rfl
  · exact fun _ _ _ _ _ _ => .refused rfl
  · intro source destination hends hfree hfile
    obtain ⟨hsource, hdestination, hfit⟩ := ends_eq_ok hends
    exact ensures_fileRename hloud
      ⟨hsource, hdestination, renamable_file hfile (checkEnds_eq_ok hfit) hfree⟩ hfile
  · intro source destination hends hfree hnone hdirectory
    obtain ⟨hsource, hdestination, hfit⟩ := ends_eq_ok hends
    exact ensures_directoryRename hloud ⟨hsource, hdestination, renamable_directory hnone hdirectory
      (checkEnds_eq_ok hfit) hfree t.settings.separator_not_mem⟩ hnone

end Tree

end BucketTree
