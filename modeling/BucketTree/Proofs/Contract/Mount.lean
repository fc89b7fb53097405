import BucketTree.Proofs.Contract.Access

/-!
# A mount under a contract

The writers in the table of a mount were all opened by paths, so the contract permits their uploads.
Hence the uploads of a mount keep the contract, however late they come.
-/

set_option autoImplicit false

namespace BucketTree

namespace Mount

variable {α : Type} {c : Contract}

/-! ## The table -/

/-- The contract permits the uploads of all open writers. -/
def MayUpload (c : Contract) (m : Mount) : Prop := ∀ e ∈ m.writers, c.PermitsUploads e.2.key

section Table

variable {m : Mount} {w : Writer}

theorem MayUpload.of_writer? (h : m.MayUpload c) {handle : Int} (hw : m.writer? handle = some w) :
    c.PermitsUploads w.key := by
  obtain ⟨e, he, rfl⟩ := Option.map_eq_some_iff.1 hw
  exact h e (List.mem_of_find?_eq_some he)

theorem MayUpload.of_writerFor? (h : m.MayUpload c) {key : Key} {e : Int × Writer}
    (he : m.writerFor? key = some e) : c.PermitsUploads e.2.key :=
  h e (List.mem_of_find?_eq_some he)

theorem MayUpload.setWriter (h : m.MayUpload c) (handle : Int) (hw : c.PermitsUploads w.key) :
    (m.setWriter handle w).MayUpload c := by
  intro e he
  obtain ⟨old, hold, rfl⟩ := List.mem_map.1 he
  unfold renewEntry
  split
  · exact hw
  · exact h old hold

theorem MayUpload.addWriter (h : m.MayUpload c) (hw : c.PermitsUploads w.key) :
    (m.addWriter w).MayUpload c := by
  intro e he
  rcases List.mem_append.1 he with he | he
  · exact h e he
  · rw [List.mem_singleton.1 he]
    exact hw

theorem MayUpload.skipHandle (h : m.MayUpload c) : m.skipHandle.MayUpload c := h

theorem MayUpload.mapWriters (h : m.MayUpload c) {f : Writer → Writer}
    (hf : ∀ w, (f w).key = w.key) : (m.mapWriters f).MayUpload c := by
  intro e he
  obtain ⟨old, hold, rfl⟩ := List.mem_map.1 he
  show c.PermitsUploads (f old.2).key
  rw [hf]
  exact h old hold

theorem MayUpload.dropHandle (h : m.MayUpload c) (handle : Int) :
    (m.dropHandle handle).MayUpload c :=
  fun e he => h e (List.mem_filter.1 he).1

theorem mayUpload_dropAll (c : Contract) (m : Mount) : m.dropAll.MayUpload c :=
  fun _ he => absurd he List.not_mem_nil

end Table

/-! ## Steps of an operation -/

variable {returns : α → Prop}

theorem keeps_refuse (e : Errno) :
    (refuse e : MountAction α).Keeps c (MayUpload c) returns :=
  Recorded.keeps_throw _

theorem keeps_lift {p : Program α} (h : p.Keeps c returns) :
    (lift p).Keeps c (MayUpload c) returns := by
  intro m hm
  have hstate : ((StateT.lift p : StateT Mount Program α).run m).Keeps c
      (fun r => returns r.1 ∧ r.2.MayUpload c) :=
    Program.Keeps.bind h fun x hx => Program.keeps_pure ⟨hx, hm⟩
  refine Program.Keeps.bind hstate ?_
  rintro ⟨x, m'⟩ ⟨hx, hm'⟩
  refine Program.keeps_pure ⟨hm', ?_⟩
  rintro _ ⟨⟩
  exact hx

theorem keeps_reported {a : Action α} (h : a.Keeps c returns) :
    (reported a).Keeps c (MayUpload c) returns := by
  refine (keeps_lift h).bind fun r hr => ?_
  cases r with
  | ok x => exact Recorded.keeps_pure (hr x rfl)
  | error fault =>
      dsimp only
      split
      · exact keeps_refuse _
      · exact Recorded.keeps_throw _

theorem keeps_passed {r : Except Misuse α} :
    (passed r).Keeps c (MayUpload c) (fun _ => True) := by
  cases r with
  | ok x => exact Recorded.keeps_pure trivial
  | error misuse => exact Recorded.keeps_throw _

theorem keeps_handOut : handOut.Keeps c (MayUpload c) (fun _ => True) :=
  Recorded.keeps_get.bind fun _ hm => (Recorded.keeps_set hm.skipHandle).bind fun _ _ =>
    Recorded.keeps_pure trivial

theorem keeps_register {w : Writer} (hw : c.PermitsUploads w.key) :
    (register w).Keeps c (MayUpload c) (fun _ => True) :=
  Recorded.keeps_get.bind fun _ hm => (Recorded.keeps_set (hm.addWriter hw)).bind fun _ _ =>
    Recorded.keeps_pure trivial

theorem keeps_setWriter {w : Writer} (handle : Int) (hw : c.PermitsUploads w.key) :
    (modify (setWriter handle w) : MountAction PUnit).Keeps c (MayUpload c)
      (fun _ => True) :=
  Recorded.keeps_modify fun _ hm => hm.setWriter handle hw

theorem keeps_addressed (path : Value) (handle : Option Int) :
    (addressed path handle).Keeps c (MayUpload c)
      (fun found => ∀ e, found = some e → c.PermitsUploads e.2.key) := by
  refine Recorded.keeps_get.bind fun m hm => ?_
  cases handle with
  | none =>
      dsimp only
      split
      · exact Recorded.keeps_throw _
      · exact Recorded.keeps_pure fun _ => hm.of_writerFor?
  | some handle =>
      dsimp only
      split
      · refine Recorded.keeps_pure fun e he => ?_
        obtain ⟨w, hw, rfl⟩ := Option.map_eq_some_iff.1 he
        exact hm.of_writer? hw
      · split
        · exact Recorded.keeps_throw _
        · exact Recorded.keeps_pure fun _ => hm.of_writerFor?

/-! ## Attributes and directories -/

section Operations

variable {t : Tree} (hfiles : c.PermitsFiles t.suffix) (path : Value)

include hfiles in
theorem keeps_getAttributes (handle : Option Int) :
    (getAttributes t path handle).Keeps c (MayUpload c) (fun _ => True) := by
  have hstatus : (do return Attributes.ofStatus (← reported (t.status path)) :
      MountAction Attributes).Keeps c (MayUpload c) (fun _ => True) :=
    (keeps_reported (Tree.keeps_status hfiles.reading t path)).bind fun _ _ =>
      Recorded.keeps_pure trivial
  refine (keeps_addressed path handle).bind fun found _ => ?_
  split
  · split
    · exact keeps_passed.bind fun _ _ => Recorded.keeps_pure trivial
    · exact hstatus
  · exact hstatus

include hfiles in
theorem keeps_readDirectory : (readDirectory t path).Keeps c (MayUpload c) (fun _ => True) :=
  (keeps_reported (Tree.keeps_list hfiles.reading t path false none)).bind fun _ _ =>
    Recorded.keeps_pure trivial

include hfiles in
theorem keeps_makeDirectory (mode : Value) :
    (makeDirectory t path mode).Keeps c (MayUpload c) (fun _ => True) := by
  refine keeps_passed.bind fun _ _ => ?_
  refine (keeps_reported (Tree.keeps_mkdirs hfiles path false)).bind fun isNew _ => ?_
  split
  · exact Recorded.keeps_pure trivial
  · exact keeps_refuse _

include hfiles in
theorem keeps_removeDirectory (hdelete : c.PermitsDelete t path) :
    (removeDirectory t path).Keeps c (MayUpload c) (fun _ => True) := by
  have hdelete := keeps_reported (Tree.keeps_delete hfiles.reading t path false none hdelete)
  refine (keeps_reported (Tree.keeps_status hfiles.reading t path)).bind fun status _ => ?_
  split
  · exact hdelete
  · exact Recorded.keeps_throw_bind _ _

include hfiles in
theorem keeps_unlink (hdelete : c.PermitsDelete t path) :
    (unlink t path).Keeps c (MayUpload c) (fun _ => True) := by
  have hdelete := keeps_reported (Tree.keeps_delete hfiles.reading t path false none hdelete)
  refine (keeps_reported (Tree.keeps_status hfiles.reading t path)).bind fun status _ => ?_
  split
  · exact Recorded.keeps_throw_bind _ _
  · exact hdelete

include hfiles in
theorem keeps_rename {source destination : Value}
    (hrenaming : c.PermitsRenaming t source destination) :
    (rename t source destination).Keeps c (MayUpload c) (fun _ => True) :=
  keeps_reported (Tree.keeps_rename hfiles.reading t none true hrenaming).discard

/-! ## Open files -/

include hfiles in
theorem keeps_create (mode : Value) :
    (create t path mode).Keeps c (MayUpload c) (fun _ => True) := by
  refine keeps_passed.bind fun _ _ => ?_
  exact (keeps_reported (Tree.keeps_openForWrite hfiles path [])).bind fun _ hw => keeps_register hw

include hfiles in
theorem keeps_openFile (flags : Int) :
    (openFile t path flags).Keeps c (MayUpload c) (fun _ => True) := by
  have hisFile := keeps_reported (Tree.keeps_isFile hfiles.reading t path)
  unfold openFile
  split
  · refine hisFile.bind fun isFile _ => ?_
    split
    · exact keeps_handOut
    · exact Recorded.keeps_throw_bind _ _
  · have hopen : ∀ data, (reported (t.openForWrite path data) >>= register).Keeps c
        (MayUpload c) (fun _ => True) := fun data =>
      (keeps_reported (Tree.keeps_openForWrite hfiles path data)).bind fun _ hw => keeps_register hw
    have hkept : ∀ keeps : Bool, (if keeps then do
          let data ← reported (t.readOnce path (.int 0) (-1))
          reported (t.openForWrite path data) >>= register
        else reported (t.openForWrite path []) >>= register : MountAction Nat).Keeps
        c (MayUpload c) (fun _ => True) := by
      intro keeps
      split
      · exact (keeps_reported (Tree.keeps_readOnce hfiles.reading t path _ _)).bind
          fun data _ => hopen data
      · exact hopen []
    dsimp only
    split
    · exact hkept false
    · exact hisFile.bind fun keeps _ => hkept keeps

include hfiles in
theorem keeps_read (size offset : Int) (handle : Option Int) :
    (read t path size offset handle).Keeps c (MayUpload c)
      (fun _ => True) := by
  refine Recorded.keeps_get.bind fun m hm => ?_
  split
  next w hw =>
    -- a read may change the writer, which is put back under its handle
    obtain ⟨h, rfl, hw⟩ := Option.bind_eq_some_iff.1 hw
    have hkey := hm.of_writer? hw
    rw [← w.key_readAt offset size] at hkey
    exact (keeps_setWriter h hkey).bind fun _ _ => keeps_passed
  next => exact keeps_reported (Tree.keeps_readOnce hfiles.reading t path _ _)

theorem keeps_write (data : Bytes) (offset : Int) (handle : Option Int) :
    (write data offset handle).Keeps c (MayUpload c) (fun _ => True) := by
  refine Recorded.keeps_get.bind fun m hm => ?_
  split
  next h w hw =>
    have hkey := hm.of_writer? hw
    rw [← w.key_writeAt data offset] at hkey
    exact (keeps_setWriter h hkey).bind fun _ _ => keeps_passed
  next => exact keeps_refuse _

include hfiles in
theorem keeps_truncate (length : Int) (handle : Option Int) :
    (truncate t path length handle).Keeps c (MayUpload c) (fun _ => True) := by
  refine (keeps_addressed path handle).bind fun found hfound => ?_
  split
  next h w =>
    have hkey := hfound _ rfl
    rw [← w.key_truncate (some length)] at hkey
    exact (keeps_setWriter h hkey).bind fun _ _ => keeps_passed.discard
  next =>
    -- without a writer the file is stored anew, through its path
    have hstore : ∀ data : Bytes, (do
        unless Word.fits length do throw (.fault (.misuse (.outOfRange .count)))
        reported (t.storeFile path (data ++ List.replicate (length.toNat - data.length) 0)) :
          MountAction Unit).Keeps c (MayUpload c) (fun _ => True) := by
      intro data
      split
      · exact keeps_reported (Tree.keeps_storeFile hfiles path _)
      · exact Recorded.keeps_throw_bind _ _
    dsimp only
    split
    · exact (keeps_reported (Tree.keeps_readOnce hfiles.reading t path _ length)).bind
        fun data _ => hstore data
    · exact hstore []

theorem keeps_sync (handle : Option Int) :
    (sync handle).Keeps c (MayUpload c) (fun _ => True) := by
  refine Recorded.keeps_get.bind fun m hm => ?_
  split
  next h w hw =>
    have hkey := hm.of_writer? hw
    refine (keeps_lift (Writer.keeps_sync hkey)).bind fun r hsame => ?_
    rw [← hsame] at hkey
    refine (keeps_setWriter h hkey).bind fun _ _ => ?_
    exact keeps_reported (Action.keeps_ofExcept fun _ _ => trivial)
  next => exact Recorded.keeps_pure trivial

theorem keeps_release (handle : Option Int) :
    (release handle).Keeps c (MayUpload c) (fun _ => True) := by
  refine Recorded.keeps_get.bind fun m hm => ?_
  split
  next h w hw =>
    -- the entry is dropped first, so the key of its writer comes from the table before
    refine (Recorded.keeps_modify fun _ hm' => hm'.dropHandle h).bind fun _ _ => ?_
    refine (keeps_lift (Writer.keeps_close (hm.of_writer? hw))).bind fun r _ => ?_
    exact keeps_reported (Action.keeps_ofExcept fun _ _ => trivial)
  next => exact Recorded.keeps_pure trivial

theorem keeps_closeAll {writers : List (Int × Writer)}
    (h : ∀ e ∈ writers, c.PermitsUploads e.2.key) :
    (closeAll writers).Keeps c (MayUpload c) (fun _ => True) := by
  induction writers with
  | nil => exact Recorded.keeps_pure trivial
  | cons e rest ih =>
      obtain ⟨hfirst, hrest⟩ := List.forall_mem_cons.1 h
      refine (keeps_lift (Writer.keeps_close hfirst)).bind fun r _ => ?_
      split
      · exact ih hrest
      · split
        · exact ih hrest
        · exact Recorded.keeps_throw _

theorem keeps_destroy : destroy.Keeps c (MayUpload c) (fun _ => True) := by
  -- the table is emptied first, and the writers of the old one are closed
  refine Recorded.keeps_get.bind fun m hm => ?_
  exact (Recorded.keeps_set (mayUpload_dropAll c m)).bind fun _ _ => keeps_closeAll hm

/-! ## Arguments of any type -/

theorem keeps_searchedHandle (handle : Value) :
    (searchedHandle handle).Keeps c (MayUpload c) (fun _ => True) := keeps_passed

theorem keeps_handleBesidePath (handle : Value) :
    (handleBesidePath handle).Keeps c (MayUpload c) (fun _ => True) := by
  unfold handleBesidePath
  split
  · exact keeps_searchedHandle handle
  · exact Recorded.keeps_pure trivial

theorem keeps_handleTakenOut (handle : Value) :
    (handleTakenOut handle).Keeps c (MayUpload c) (fun _ => True) := by
  refine Recorded.keeps_get.bind fun m _ => ?_
  split
  · exact Recorded.keeps_pure trivial
  · exact keeps_searchedHandle handle

include hfiles in
theorem keeps_openFileAny (flags : Value) :
    (openFileAny t path flags).Keeps c (MayUpload c) (fun _ => True) := by
  unfold openFileAny
  split
  · exact keeps_openFile hfiles path _
  · exact keeps_passed

include hfiles in
theorem keeps_readAny (size offset : Value) (handle : Option Int) :
    (readAny t path size offset handle).Keeps c (MayUpload c)
      (fun _ => True) := by
  unfold readAny
  split
  · exact keeps_read hfiles path _ _ handle
  · refine Recorded.keeps_get.bind fun m hm => ?_
    split
    next h w hw =>
      have hkey := hm.of_writer? hw
      rw [← w.key_readAtAny offset size] at hkey
      exact (keeps_setWriter h hkey).bind fun _ _ => keeps_passed
    next => exact keeps_reported (Tree.keeps_readOnceAny hfiles.reading t path offset size)

theorem keeps_writeAny (data : Bytes) (offset : Value) (handle : Option Int) :
    (writeAny data offset handle).Keeps c (MayUpload c) (fun _ => True) := by
  unfold writeAny
  split
  · exact keeps_write data _ handle
  · refine Recorded.keeps_get.bind fun m _ => ?_
    split
    · exact keeps_passed
    · exact keeps_refuse _

include hfiles in
theorem keeps_refuseLength (length : Value) :
    (refuseLength t path length).Keeps c (MayUpload c) (fun _ => True) := by
  refine keeps_passed.bind fun isAbove _ => ?_
  split
  · exact (keeps_reported (Tree.keeps_readOnceAny hfiles.reading t path _ length)).discard.bind
      fun _ _ => keeps_passed
  · exact keeps_passed

include hfiles in
theorem keeps_truncateAny (length : Value) (handle : Option Int) :
    (truncateAny t path length handle).Keeps c (MayUpload c)
      (fun _ => True) := by
  unfold truncateAny
  split
  · exact keeps_truncate hfiles path _ handle
  · refine (keeps_addressed path handle).bind fun found hfound => ?_
    split
    next h w =>
      have hkey := hfound _ rfl
      rw [← w.key_truncateAny length] at hkey
      exact (keeps_setWriter h hkey).bind fun _ _ => keeps_passed.discard
    next => exact keeps_refuseLength hfiles path length

end Operations

end Mount

end BucketTree
