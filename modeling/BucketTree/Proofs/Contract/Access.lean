import BucketTree.Proofs.Content.Writer
import BucketTree.Proofs.Contract.Tree
import BucketTree.Session.AnyArgument

/-!
# Writers and readers under a contract

A writer keeps its key and uploads to that key only, so a contract that permits these uploads is
kept whenever the writer is closed. The keys of the files opened for writing, and of the directories
made, are keys of paths.
-/

set_option autoImplicit false

namespace BucketTree

variable {c : Contract}

namespace Writer

variable (w : Writer)

theorem key_writeAtAny (data : Bytes) (offset : Value) :
    (w.writeAtAny data offset).2.key = w.key := by
  unfold writeAtAny
  split
  · exact w.key_writeAt data _
  · exact w.key_whileOpen rfl

theorem key_readAtAny (offset size : Value) : (w.readAtAny offset size).2.key = w.key := by
  unfold readAtAny
  split
  · exact w.key_readAt _ _
  · exact w.key_whileOpen rfl
  · apply key_whileOpen
    split <;> rfl

theorem key_truncateAny (size : Value) : (w.truncateAny size).2.key = w.key := by
  unfold truncateAny
  split
  · exact w.key_truncate _
  · split
    · rfl
    · dsimp only
      split <;> rfl

/-! ## Uploads -/

variable {w}

theorem keeps_upload (hkey : c.PermitsUploads w.key) :
    w.upload.Keeps c (fun r => r.2.key = w.key) := by
  unfold upload
  split
  · exact Program.keeps_pure rfl
  · refine Program.Keeps.bind (Program.keeps_request (hkey w.uploaded)) fun outcome _ => ?_
    cases outcome with
    | ok block => exact Program.keeps_pure rfl
    | error fault => exact Program.keeps_pure rfl

theorem keeps_sync (hkey : c.PermitsUploads w.key) :
    w.sync.Keeps c (fun r => r.2.key = w.key) := by
  unfold sync
  split
  · exact Program.keeps_pure rfl
  · exact keeps_upload hkey

theorem keeps_close (hkey : c.PermitsUploads w.key) :
    w.close.Keeps c (fun r => r.2.key = w.key) := by
  unfold close
  split
  · exact Program.keeps_pure rfl
  · refine (keeps_upload hkey).bind fun r hsame => ?_
    obtain ⟨outcome, w'⟩ := r
    have hfinish := w'.key_finish
    dsimp only
    split
    next heq =>
      rw [heq] at hfinish
      exact Program.keeps_pure (hfinish.trans hsame)
    next heq =>
      rw [heq] at hfinish
      exact Program.keeps_pure (hfinish.trans hsame)

theorem keeps_scope (hkey : c.PermitsUploads w.key) (items : List Bytes) (fault : Option Fault) :
    (w.scope items fault).Keeps c (fun r => r.2.key = w.key) := by
  have hwritten := w.key_writeAll items
  unfold scope
  split
  · exact Program.keeps_pure rfl
  · split
    next heq =>
      rw [heq] at hwritten
      exact Program.keeps_pure ((key_discardFor _ _).trans hwritten)
    next heq =>
      rw [heq] at hwritten
      exact Program.keeps_pure ((key_discardFor _ _).trans hwritten)
    next heq =>
      rw [heq] at hwritten
      rw [← hwritten] at hkey
      exact (keeps_close hkey).mono fun _ hclosed => hclosed.trans hwritten

end Writer

namespace Directory

theorem keeps_createMarker {suffix : String} {key : Key} (hroot : key ≠ Key.root)
    (hput : c.permits (.put (key ++ suffix) (.ofBody (.fresh [])))) :
    (createMarker suffix key).Keeps c (fun _ => True) := by
  unfold createMarker
  rw [Key.marker_eq hroot]
  show Action.Keeps _ _ (Action.lift (Program.put (key ++ suffix) _) >>= _)
  refine Action.Keeps.bind (Action.keeps_request hput) fun outcome _ => ?_
  cases outcome with
  | ok _ => exact Action.keeps_pure trivial
  | error fault => exact Action.keeps_fail _

end Directory

namespace Tree

/-! ## Reading -/

section Reading

variable (hread : c.PermitsReading) (t : Tree) (path : Value)

include hread

/-- A reader has the requested offset, and a stream that the contract trusts. -/
theorem keeps_openForRead (offset : Value) : (t.openForRead path offset).Keeps c fun reader =>
    reader.offset = offset ∧ c.trusts (.openRange reader.key offset) reader.stream := by
  refine Action.Keeps.bind (Action.keeps_ofExcept fun _ _ => trivial) fun isBelow _ => ?_
  split
  · exact Action.keeps_throw _
  · refine (keeps_key t path).bind fun key _ => ?_
    refine (keeps_refuseRoot key _ path).bind fun _ _ => ?_
    refine (Action.keeps_request (hread (.openRange key offset) rfl)).bind fun outcome htrusts => ?_
    cases outcome with
    | ok stream => exact Action.keeps_pure ⟨rfl, htrusts stream rfl⟩
    | error fault =>
        dsimp only
        split
        · exact Action.keeps_fail _
        · exact Action.keeps_fail _

theorem keeps_readOnce (offset : Value) (size : Int) :
    (t.readOnce path offset size).Keeps c (fun _ => True) := by
  refine (keeps_openForRead hread t path offset).bind fun reader _ => ?_
  refine Action.Keeps.bind (Action.keeps_ofExcept fun _ _ => trivial) fun _ _ => ?_
  exact Action.keeps_ofExcept fun _ _ => trivial

theorem keeps_readOnceAny (offset size : Value) :
    (t.readOnceAny path offset size).Keeps c (fun _ => True) := by
  unfold readOnceAny
  split
  · exact keeps_readOnce hread t path offset _
  · refine (keeps_openForRead hread t path offset).bind fun reader _ => ?_
    refine Action.Keeps.bind (Action.keeps_ofExcept fun _ _ => trivial) fun _ _ => ?_
    exact Action.keeps_throw _

end Reading

/-! ## Writing -/

section Writing

variable {t : Tree} (hfiles : c.PermitsFiles t.suffix) (path : Value)

include hfiles

theorem keeps_openForWrite (data : Bytes) :
    (t.openForWrite path data).Keeps c (fun w => c.PermitsUploads w.key) := by
  refine (keeps_key t path).bind fun key hkey => ?_
  refine (keeps_refuseRoot key _ path).bind fun _ hroot => ?_
  exact Action.keeps_pure (hfiles.uploads key ((isPath_of_resolve hkey).isPlain hroot))

theorem keeps_makeDirectory (calls : Nat) (createParents : Bool) :
    (t.makeDirectory calls path createParents).Keeps c (fun _ => True) := by
  induction calls generalizing path createParents with
  | zero => exact Action.keeps_throw _
  | succ calls ih =>
      refine (keeps_key t path).bind fun key hkey => ?_
      split
      · exact Action.keeps_pure trivial
      next hroot =>
        have hread := hfiles.reading
        have hplain := (isPath_of_resolve hkey).isPlain fun heq => hroot (beq_iff_eq.2 heq)
        have hmake : Action.Keeps c (fun _ => True)
            (Directory.createMarker t.suffix key >>= fun _ => pure true) :=
          (Directory.keeps_createMarker hplain.ne_root (hfiles.markers key hplain)).bind
            fun _ _ => Action.keeps_pure trivial
        refine (keeps_statusOf hread key).bind fun object _ => ?_
        dsimp only
        split
        · exact Action.keeps_fail_bind _ _
        · refine (Directory.keeps_exists? hread t.suffix key).bind fun isThere _ => ?_
          split
          · exact Action.keeps_pure trivial
          · split
            · exact hmake
            next parent _ =>
              split
              · refine (Directory.keeps_exists? hread t.suffix parent).bind fun isThere _ => ?_
                split
                · exact hmake
                · split
                  · exact Action.keeps_fail_bind _ _
                  · exact (ih _ _).discard.bind fun _ _ => hmake
              · exact hmake

theorem keeps_mkdirs (createParents : Bool) :
    (t.mkdirs path createParents).Keeps c (fun _ => True) :=
  keeps_makeDirectory hfiles path _ createParents

theorem keeps_create (createParents : Bool) :
    (t.create path createParents).Keeps c (fun w => c.PermitsUploads w.key) := by
  have hopen := keeps_openForWrite hfiles path []
  refine (keeps_key t path).bind fun key _ => ?_
  split
  · split
    · exact hopen
    · split
      · exact (keeps_mkdirs hfiles _ true).discard.bind fun _ _ => hopen
      · exact hopen
  · exact hopen

/-! ## Whole requests -/

omit hfiles in
theorem keeps_closeWriter {w : Writer} (hkey : c.PermitsUploads w.key) :
    (closeWriter w).Keeps c (fun _ => True) :=
  (Action.keeps_lift (Writer.keeps_close hkey)).bind fun _ _ =>
    Action.keeps_ofExcept fun _ _ => trivial

theorem keeps_storeFile (data : Bytes) : (t.storeFile path data).Keeps c (fun _ => True) :=
  (keeps_openForWrite hfiles path data).bind fun _ hkey => keeps_closeWriter hkey

theorem keeps_writeFile (data : Bytes) (createParents : Bool) :
    (t.writeFile path data createParents).Keeps c (fun _ => True) := by
  refine (keeps_create hfiles path createParents).bind fun w hkey => ?_
  have hwrite := w.key_write data
  split
  · exact Action.keeps_throw _
  next heq =>
    rw [heq] at hwrite
    rw [← hwrite] at hkey
    exact (keeps_closeWriter hkey).bind fun _ _ => Action.keeps_pure trivial

end Writing

end Tree

end BucketTree
