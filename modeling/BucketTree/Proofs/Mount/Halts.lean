import BucketTree.Mount.Operations
import BucketTree.Proofs.Tree.Halts

/-!
# Calls that halt

All calls except those that read a directory or rename walk over no listing, so they halt for every
sequence of answers.
-/

set_option autoImplicit false

namespace BucketTree

variable {α : Type}

namespace Mount

theorem halts_lift {p : Program α} (h : p.Halts) : Recorded.Halts (lift p) := by
  intro m
  show ((p >>= fun a => pure (a, m)) >>= fun r => pure (Except.ok r.1, r.2)).Halts
  exact (h.bind fun _ => Program.halts_pure _).bind fun _ => Program.halts_pure _

theorem halts_reported {a : Action α} (h : a.Halts) : Recorded.Halts (reported a) := by
  refine (halts_lift h).bind fun r => ?_
  cases r with
  | ok x => exact Recorded.halts_pure _
  | error fault =>
      dsimp only
      split
      · exact Recorded.halts_throw _
      · exact Recorded.halts_throw _

theorem halts_passed (r : Except Misuse α) : Recorded.Halts (passed r) := by
  cases r with
  | ok x => exact Recorded.halts_pure _
  | error misuse => exact Recorded.halts_throw _

theorem halts_register (w : Writer) : Recorded.Halts (register w) :=
  Recorded.halts_get.bind fun _ => (Recorded.halts_set _).bind fun _ => Recorded.halts_pure _

theorem halts_addressed (path : Value) (handle : Option Int) :
    Recorded.Halts (addressed path handle) := by
  refine Recorded.halts_get.bind fun m => ?_
  cases handle with
  | none =>
      cases Path.toKey path "" with
      | error refusal => exact Recorded.halts_throw _
      | ok key => exact Recorded.halts_pure _
  | some h =>
      dsimp only
      split
      · exact Recorded.halts_pure _
      · cases Path.toKey path "" with
        | error refusal => exact Recorded.halts_throw _
        | ok key => exact Recorded.halts_pure _

theorem halts_getAttributes (t : Tree) (path : Value) (handle : Option Int) :
    Recorded.Halts (getAttributes t path handle) := by
  have hstatus : Recorded.Halts
      (do return Attributes.ofStatus (← reported (t.status path)) : MountAction Attributes) :=
    (halts_reported (t.halts_status path)).bind fun _ => Recorded.halts_pure _
  refine (halts_addressed path handle).bind fun found => ?_
  cases found with
  | some file =>
      dsimp only
      split
      · exact (halts_passed _).bind fun _ => Recorded.halts_pure _
      · exact hstatus
  | none => exact hstatus

theorem halts_makeDirectory (t : Tree) (path mode : Value) :
    Recorded.Halts (makeDirectory t path mode) := by
  refine (halts_passed _).bind fun _ => (halts_reported (t.halts_mkdirs path)).bind fun isNew => ?_
  split
  · exact Recorded.halts_pure _
  · exact Recorded.halts_throw _

theorem halts_removeDirectory (t : Tree) (path : Value) :
    Recorded.Halts (removeDirectory t path) := by
  refine (halts_reported (t.halts_status path)).bind fun status => ?_
  split
  · exact halts_reported (t.halts_delete path none)
  · exact Recorded.halts_throw_bind _ _

theorem halts_unlink (t : Tree) (path : Value) : Recorded.Halts (unlink t path) := by
  refine (halts_reported (t.halts_status path)).bind fun status => ?_
  split
  · exact Recorded.halts_throw_bind _ _
  · exact halts_reported (t.halts_delete path none)

theorem halts_create (t : Tree) (path mode : Value) : Recorded.Halts (create t path mode) :=
  (halts_passed _).bind fun _ =>
    (halts_reported (t.halts_openForWrite path [])).bind fun w => halts_register w

theorem halts_openFile (t : Tree) (path : Value) (flags : Int) :
    Recorded.Halts (openFile t path flags) := by
  have hopen : ∀ data, Recorded.Halts
      (do register (← reported (t.openForWrite path data)) : MountAction Nat) :=
    fun data => (halts_reported (t.halts_openForWrite path data)).bind fun w => halts_register w
  have hkeep : ∀ keeps : Bool, Recorded.Halts (do
      let data ← if keeps then reported (t.readOnce path (.int 0) (-1)) else pure []
      register (← reported (t.openForWrite path data)) : MountAction Nat) := by
    intro keeps
    cases keeps with
    | true => exact (halts_reported (t.halts_readOnce path _ _)).bind hopen
    | false => exact hopen []
  unfold openFile
  split
  · refine (halts_reported (t.halts_isFile path)).bind fun isFile => ?_
    split
    · exact Recorded.halts_get.bind fun _ => (Recorded.halts_set _).bind fun _ =>
        Recorded.halts_pure _
    · exact Recorded.halts_throw_bind _ _
  · split
    · exact hkeep false
    · exact (halts_reported (t.halts_isFile path)).bind hkeep

theorem halts_read (t : Tree) (path : Value) (size offset : Int) (handle : Option Int) :
    Recorded.Halts (read t path size offset handle) := by
  refine Recorded.halts_get.bind fun m => ?_
  split
  · exact (Recorded.halts_modify _).bind fun _ => halts_passed _
  · exact halts_reported (t.halts_readOnce path _ _)

theorem halts_write (data : Bytes) (offset : Int) (handle : Option Int) :
    Recorded.Halts (write data offset handle) := by
  refine Recorded.halts_get.bind fun m => ?_
  split
  · exact (Recorded.halts_modify _).bind fun _ => halts_passed _
  · exact Recorded.halts_throw _

theorem halts_truncate (t : Tree) (path : Value) (length : Int) (handle : Option Int) :
    Recorded.Halts (truncate t path length handle) := by
  have hstore : ∀ data, Recorded.Halts (do
      unless Word.fits length do throw (.fault (.misuse (.outOfRange .count)))
      reported (t.storeFile path (data ++ List.replicate (length.toNat - data.length) 0)) :
        MountAction Unit) := by
    intro data
    split
    · exact halts_reported (t.halts_storeFile path _)
    · exact Recorded.halts_throw_bind _ _
  refine (halts_addressed path handle).bind fun found => ?_
  cases found with
  | some file =>
      exact (Recorded.halts_modify _).bind fun _ => (halts_passed _).bind fun _ =>
        Recorded.halts_pure _
  | none =>
      dsimp only
      split
      · exact (halts_reported (t.halts_readOnce path _ _)).bind hstore
      · exact hstore []

theorem halts_sync (handle : Option Int) : Recorded.Halts (sync handle) := by
  refine Recorded.halts_get.bind fun m => ?_
  split
  · exact (halts_lift (Writer.halts_sync _)).bind fun _ => (Recorded.halts_modify _).bind fun _ =>
      halts_reported (Action.halts_ofExcept _)
  · exact Recorded.halts_pure _

theorem halts_release (handle : Option Int) : Recorded.Halts (release handle) := by
  refine Recorded.halts_get.bind fun m => ?_
  split
  · exact (Recorded.halts_modify _).bind fun _ => (halts_lift (Writer.halts_close _)).bind fun _ =>
      halts_reported (Action.halts_ofExcept _)
  · exact Recorded.halts_pure _

end Mount

end BucketTree
