import BucketTree.Proofs.Mount.Truncation
import BucketTree.Proofs.Tree.Faults

/-!
# Refusals of a mount

On a sound store, an operation of a mount ends with a result or an error number, apart from two
kinds of faults that are passed on unchanged. One is a misuse, when a buffer has failed or a number
does not fit into memory. The other is the refusal of the path by which an open file is searched,
which happens before faults are reported: attributes and truncations without a handle do this
(`raises_getAttributes`, `raises_truncate`).
-/

set_option autoImplicit false

namespace BucketTree

variable {α β σ : Type}

/-- The refusal is an error number, or `reason` holds and it is a misuse. -/
def Refusal.IsErrnoUnless (reason : Prop) (r : Refusal) : Prop :=
  (∃ e, r = .errno e) ∨ reason ∧ ∃ misuse, r = .fault (.misuse misuse)

/-- The refusal is that of a path by which an open file is searched. -/
def Refusal.IsRefusedSearch (path : Value) (given : Option Int) (r : Refusal) : Prop :=
  (∀ h ∈ given, h = 0) ∧ ∃ refusal, Path.toKey path "" = .error refusal ∧
    r = .fault (.known (.ofRefusal refusal))

namespace Mount

section Rules

variable {c : Contract} {reason : Prop}

theorem raises_refuse (e : Errno) :
    (refuse e : MountAction α).Raises c (Refusal.IsErrnoUnless reason) :=
  Recorded.raises_throw (Or.inl ⟨e, rfl⟩)

/-- Rule for an operation that starts with a `refuse`. -/
theorem raises_refuse_bind (e : Errno) (f : α → MountAction β) :
    ((refuse e : MountAction α) >>= f).Raises c (Refusal.IsErrnoUnless reason) :=
  raises_refuse e

theorem raises_passed {r : Except Misuse α} (h : ∀ misuse, r = .error misuse → reason) :
    (passed r).Raises c (Refusal.IsErrnoUnless reason) := by
  cases r with
  | ok x => exact Recorded.raises_pure x
  | error misuse => exact Recorded.raises_throw (Or.inr ⟨h misuse rfl, misuse, rfl⟩)

/-- Rule for `lift p >>= f`: the program leaves the table alone. -/
theorem raises_lift_bind {allows : Refusal → Prop} {p : Program α} {f : α → MountAction β}
    {returns : α → Prop} (h : p.Keeps c returns) (hf : ∀ x, returns x → (f x).Raises c allows) :
    (lift p >>= f).Raises c allows := by
  intro m
  unfold Recorded.RaisesFrom
  rw [MountAction.run_lift_bind]
  exact Program.Keeps.bind h fun x hx => hf x hx m

/-- Rule for `reported`: a known failure becomes an error number. -/
theorem raises_reported {a : Action α} (h : a.Raises c (Fault.IsKnownUnless reason)) :
    (reported a).Raises c (Refusal.IsErrnoUnless reason) := by
  refine raises_lift_bind h fun r hfault => ?_
  rcases r with fault | x
  · obtain ⟨failure, rfl⟩ | ⟨hreason, misuse, rfl⟩ := hfault fault rfl
    · exact raises_refuse _
    · exact Recorded.raises_throw (Or.inr ⟨hreason, misuse, rfl⟩)
  · exact Recorded.raises_pure x

/-- Rule for `reported a >>= f`, where `f` may use what the contract says about the results of
`a`. -/
theorem raises_reported_bind {a : Action α} {f : α → MountAction β} {returns : α → Prop}
    (h : a.Raises c (Fault.IsKnownUnless reason)) (hreturns : a.Keeps c returns)
    (hf : ∀ x, returns x → (f x).Raises c (Refusal.IsErrnoUnless reason)) :
    (reported a >>= f).Raises c (Refusal.IsErrnoUnless reason) := by
  unfold reported
  rw [bind_assoc]
  refine raises_lift_bind (Program.Keeps.and h hreturns) fun r hr => ?_
  obtain ⟨hfault, hx⟩ := hr
  rcases r with fault | x
  · obtain ⟨failure, rfl⟩ | ⟨hreason, misuse, rfl⟩ := hfault fault rfl
    · exact raises_refuse_bind _ f
    · exact Recorded.raises_throw (Or.inr ⟨hreason, misuse, rfl⟩)
  · exact hf x (hx x rfl)

theorem raises_reported_known {a : Action α} (h : a.Raises c Fault.IsKnown) :
    (reported a).Raises c (Refusal.IsErrnoUnless reason) :=
  raises_reported (h.mono fun _ => Fault.IsKnown.unless)

theorem raises_handOut : handOut.Raises c (Refusal.IsErrnoUnless reason) :=
  Recorded.raises_get_bind fun _ => (Recorded.raises_set _).bind fun _ => Recorded.raises_pure _

theorem raises_register (w : Writer) : (register w).Raises c (Refusal.IsErrnoUnless reason) :=
  Recorded.raises_get_bind fun _ => (Recorded.raises_set _).bind fun _ => Recorded.raises_pure _

end Rules

/-! ## Directories -/

section Operations

variable {t : Tree} {root : String} (hroot : t.settings.rootUri = .text root) {reason : Prop}

include hroot in
theorem raises_readDirectory (path : Value) :
    (readDirectory t path).Raises .sound (Refusal.IsErrnoUnless reason) :=
  (raises_reported_known (allowsChanges_sound.raises_list (Tree.allowsPath_isLoud hroot path) false
    none)).bind fun _ => Recorded.raises_pure _

include hroot in
theorem raises_makeDirectory (path : Value) (mode : Int) :
    (makeDirectory t path (.int mode)).Raises .sound (Refusal.IsErrnoUnless reason) := by
  refine (raises_passed (r := .ok ()) nofun).bind fun _ => ?_
  refine (raises_reported_known (allowsChanges_sound.raises_makeDirectory
    (Tree.allowsWay_isLoud hroot) trivial t.nestingLimit false nofun)).bind fun isNew => ?_
  split
  · exact Recorded.raises_pure _
  · exact raises_refuse _

include hroot in
theorem raises_reported_status (path : Value) :
    (reported (t.status path)).Raises .sound (Refusal.IsErrnoUnless reason) :=
  raises_reported_known (allowsChanges_sound.raises_status (Tree.allowsPath_isLoud hroot path))

include hroot in
theorem raises_reported_delete (path : Value) :
    (reported (t.delete path false none)).Raises .sound (Refusal.IsErrnoUnless reason) :=
  raises_reported_known
    (allowsChanges_sound.raises_delete (Tree.allowsOther_isLoud hroot path) false none)

include hroot in
theorem raises_removeDirectory (path : Value) :
    (removeDirectory t path).Raises .sound (Refusal.IsErrnoUnless reason) := by
  refine (raises_reported_status hroot path).bind fun status => ?_
  split
  · exact raises_reported_delete hroot path
  · exact raises_refuse_bind _ _

include hroot in
theorem raises_unlink (path : Value) :
    (unlink t path).Raises .sound (Refusal.IsErrnoUnless reason) := by
  refine (raises_reported_status hroot path).bind fun status => ?_
  split
  · exact raises_refuse_bind _ _
  · exact raises_reported_delete hroot path

include hroot in
theorem raises_rename (source destination : Value) :
    (rename t source destination).Raises .sound (Refusal.IsErrnoUnless reason) :=
  raises_reported_known (allowsChanges_sound.raises_rename
    (Tree.allowsEnds_isLoud hroot source destination) none true).discard

/-! ## Opening -/

include hroot in
theorem raises_openForWrite (path : Value) (data : Bytes) :
    (do register (← reported (t.openForWrite path data)) : MountAction Nat).Raises .sound
      (Refusal.IsErrnoUnless reason) :=
  (raises_reported_known ((Tree.allowsOther_isLoud hroot path).raises_openForWrite data).known).bind
    raises_register

include hroot in
theorem raises_create (path : Value) (mode : Int) :
    (create t path (.int mode)).Raises .sound (Refusal.IsErrnoUnless reason) :=
  (raises_passed (r := .ok ()) nofun).bind fun _ => raises_openForWrite hroot path []

include hroot in
theorem raises_openFile (path : Value) (flags : Int) :
    (openFile t path flags).Raises .sound (Refusal.IsErrnoUnless reason) := by
  have hisFile : (reported (t.isFile path)).Raises .sound (Refusal.IsErrnoUnless reason) :=
    raises_reported_known
      (allowsChanges_sound.raises_isFile (Tree.allowsPath_isLoud hroot path)).known
  have hkept : ∀ keeps : Bool, (if keeps then do
        let data ← reported (t.readOnce path (.int 0) (-1))
        register (← reported (t.openForWrite path data))
      else do register (← reported (t.openForWrite path [])) : MountAction Nat).Raises .sound
        (Refusal.IsErrnoUnless reason) := by
    intro keeps
    split
    · -- what the whole file takes is not a matter of the request
      have hread := Tree.raises_readOnce hroot path (Int.le_refl 0) (Int.le_refl (-1))
      refine (raises_reported (hread.mono fun fault hfault => ?_)).bind
        fun data => raises_openForWrite hroot path data
      exact hfault.mono fun hlarge => absurd hlarge (by decide)
    · exact raises_openForWrite hroot path []
  unfold openFile
  split
  · refine hisFile.bind fun isFile => ?_
    split
    · exact raises_handOut
    · exact raises_refuse_bind _ _
  · dsimp only
    split
    · exact hkept false
    · exact hisFile.bind hkept

end Operations

/-! ## Buffers -/

/-- The buffers of all open files are in order, and their bytes fit into memory. -/
def HasRoom (m : Mount) : Prop := ∀ e ∈ m.writers, ∃ bytes, e.2.HasRoom e.2.key bytes

variable {m : Mount} {handle : Int} {w : Writer}

theorem HasRoom.of_writer? (h : m.HasRoom) (hw : m.writer? handle = some w) :
    ∃ bytes, w.HasRoom w.key bytes := by
  obtain ⟨e, he, rfl⟩ := Option.map_eq_some_iff.1 hw
  exact h e (List.mem_of_find?_eq_some he)

/-- Rule for an operation of a writer that is not refused unless `reason` holds. -/
theorem raises_setWriter_passed {r : Except Misuse α} {reason : Prop} (g : Mount → Mount)
    (h : ¬ reason → ∃ x, r = .ok x) : (do
      modify g
      passed r : MountAction α).Raises .sound (Refusal.IsErrnoUnless reason) := by
  refine (Recorded.raises_modify g).bind fun _ => raises_passed ?_
  rintro misuse rfl
  by_contra hreason
  obtain ⟨x, hx⟩ := h hreason
  cases hx

section Buffers

variable {t : Tree} {root : String} (hroot : t.settings.rootUri = .text root)

include hroot in
/-- A read raises error numbers only, as long as it and the buffers fit into memory. -/
theorem raises_read (path : Value) (size offset : Nat) (given : Option Int) (m : Mount) :
    (read t path size offset given).RaisesFrom .sound (Refusal.IsErrnoUnless
      (¬ (m.HasRoom ∧ (offset : Int) < Word.memoryLimit ∧ (size : Int) < Word.memoryLimit))) m := by
  refine Recorded.raisesFrom_get_bind ?_
  split
  next w hw =>
    obtain ⟨handle, rfl, hw⟩ := Option.bind_eq_some_iff.1 hw
    refine raises_setWriter_passed _ (fun hroom => ?_) m
    obtain ⟨hm, hoffset, hsize⟩ := not_not.1 hroom
    obtain ⟨bytes, hheld⟩ := hm.of_writer? hw
    obtain ⟨w', hread, -⟩ := hheld.readAt hoffset hsize
    exact ⟨_, congrArg Prod.fst hread⟩
  next =>
    have hread := Tree.raises_readOnce hroot path (Int.natCast_nonneg offset)
      (Int.le_trans (by decide) (Int.natCast_nonneg size))
    refine raises_reported (hread.mono fun fault hfault => ?_) m
    exact hfault.mono fun hlarge hroom => absurd hroom.2.2 (Int.not_lt.2 hlarge)

/-- A write raises error numbers only, as long as it and the buffers fit into memory. -/
theorem raises_write (data : Bytes) (offset : Nat) (given : Option Int) (m : Mount) :
    (write data offset given).RaisesFrom .sound (Refusal.IsErrnoUnless
      (¬ (m.HasRoom ∧ (offset + data.length : Int) < Word.memoryLimit))) m := by
  refine Recorded.raisesFrom_get_bind ?_
  split
  next handle w hw =>
    refine raises_setWriter_passed _ (fun hroom => ?_) m
    obtain ⟨hm, hreach⟩ := not_not.1 hroom
    obtain ⟨bytes, hheld⟩ := hm.of_writer? hw
    obtain ⟨w', hwrite, -⟩ := hheld.writeAt hreach
    exact ⟨_, congrArg Prod.fst hwrite⟩
  next => exact raises_refuse _ m

theorem raises_sync (given : Option Int) (m : Mount) :
    (sync given).RaisesFrom .sound (Refusal.IsErrnoUnless (¬ m.HasRoom)) m := by
  refine Recorded.raisesFrom_get_bind ?_
  split
  next handle w hw =>
    refine raises_lift_bind w.keeps_sync_faults (fun r hfault => ?_) m
    refine (Recorded.raises_modify _).bind fun _ => raises_reported ?_
    refine Action.raises_ofExcept fun fault hr => (hfault fault hr).mono fun hfailed hm => ?_
    obtain ⟨bytes, hheld⟩ := hm.of_writer? hw
    exact hfailed ⟨hheld.holds.isOpen, hheld.inOrder⟩
  next => exact Recorded.raises_pure () m

theorem raises_release (given : Option Int) (m : Mount) :
    (release given).RaisesFrom .sound (Refusal.IsErrnoUnless (¬ m.HasRoom)) m := by
  refine Recorded.raisesFrom_get_bind ?_
  split
  next handle w hw =>
    refine ((Recorded.raises_modify _).bind fun _ =>
      raises_lift_bind w.keeps_close_faults fun r hfault => raises_reported ?_) m
    refine Action.raises_ofExcept fun fault hr => (hfault fault hr).mono fun hfailed hm => ?_
    obtain ⟨bytes, hheld⟩ := hm.of_writer? hw
    exact hfailed hheld.inOrder
  next => exact Recorded.raises_pure () m

/-! ## Open files that are looked for -/

/-- Rule for the search of an open file followed by `f`: it ends with the refusal of the path, or
`f` is given the writer that was found, if any. -/
theorem raises_addressed_bind {path : Value} {given : Option Int} {allows : Refusal → Prop}
    {f : Option (Int × Writer) → MountAction α}
    (hleads : ∀ handle w, m.Leads path given handle w →
      (f (some (handle, w))).RaisesFrom .sound allows m)
    (hnowhere : m.LeadsNowhere path given → (f none).RaisesFrom .sound allows m)
    (hrefused : ∀ refusal, (∀ h ∈ given, h = 0) → Path.toKey path "" = .error refusal →
      allows (.fault (.known (.ofRefusal refusal)))) :
    (addressed path given >>= f).RaisesFrom .sound allows m := by
  obtain ⟨handle, w, hlead⟩ | hnowhere' | ⟨hgiven, refusal, hkey⟩ := leads_or_refused m path given
  · exact Recorded.raisesFrom_pure_bind (addressed_of_leads hlead) (hleads handle w hlead)
  · exact Recorded.raisesFrom_pure_bind (addressed_of_leadsNowhere hnowhere') (hnowhere hnowhere')
  · exact Recorded.raisesFrom_throw_bind (addressed_of_refused hgiven hkey m)
      (hrefused refusal hgiven hkey)

include hroot in
theorem raises_getAttributes (path : Value) (given : Option Int) (m : Mount) :
    (getAttributes t path given).RaisesFrom .sound (fun r =>
      r.IsErrnoUnless (¬ m.HasRoom) ∨ r.IsRefusedSearch path given) m := by
  have hstatus : (do return Attributes.ofStatus (← reported (t.status path)) :
      MountAction Attributes).RaisesFrom .sound (fun r =>
        r.IsErrnoUnless (¬ m.HasRoom) ∨ r.IsRefusedSearch path given) m :=
    ((raises_reported_status hroot path).bind
      fun status => Recorded.raises_pure _).mono (fun _ => Or.inl) m
  refine raises_addressed_bind (fun handle w hlead => ?_) (fun _ => hstatus) fun refusal h hkey =>
    Or.inr ⟨h, refusal, hkey, rfl⟩
  dsimp only
  split
  · refine ((raises_passed fun misuse hsize hm => ?_).bind
      fun size => Recorded.raises_pure _).mono (fun _ => Or.inl) m
    obtain ⟨bytes, hheld⟩ := hm.of_writer? hlead.writer?_eq
    rw [hheld.size] at hsize
    cases hsize
  · exact hstatus

include hroot in
/-- Storing a file with zeros appended raises error numbers only, as long as it fits into memory. -/
theorem raises_storePadded (path : Value) (data : Bytes) (length : Nat)
    (hlength : data.length ≤ length) : (do
      unless Word.fits (length : Int) do throw (.fault (.misuse (.outOfRange .count)))
      reported (t.storeFile path
        (data ++ List.replicate ((length : Int).toNat - data.length) 0)) : MountAction Unit).Raises
      .sound (Refusal.IsErrnoUnless (Word.memoryLimit ≤ (length : Int))) := by
  split
  next =>
    refine raises_reported ((Tree.raises_storeFile hroot path _).mono fun fault hfault => ?_)
    refine hfault.mono fun hlarge => ?_
    rw [List.length_append, List.length_replicate, Int.toNat_natCast] at hlarge
    omega
  next hfits =>
    refine Recorded.raises_throw (Or.inr ⟨?_, _, rfl⟩)
    rw [Word.fits_iff] at hfits
    unfold Word.bound at hfits
    unfold Word.memoryLimit
    omega

include hroot in
theorem raises_truncate (path : Value) (length : Nat) (given : Option Int) (m : Mount) :
    (truncate t path length given).RaisesFrom .sound (fun r =>
      r.IsErrnoUnless (¬ (m.HasRoom ∧ (length : Int) < Word.memoryLimit)) ∨
        r.IsRefusedSearch path given) m := by
  refine raises_addressed_bind (fun handle w hlead => ?_) (fun _ => ?_) fun refusal h hkey =>
    Or.inr ⟨h, refusal, hkey, rfl⟩
  · have hpassed : ¬ ¬ (m.HasRoom ∧ (length : Int) < Word.memoryLimit) →
        ∃ told, (w.truncate (some (length : Int))).1 = .ok told := by
      intro hroom
      obtain ⟨hm, hlength⟩ := not_not.1 hroom
      obtain ⟨bytes, hheld⟩ := hm.of_writer? hlead.writer?_eq
      obtain ⟨w', htruncate, -⟩ := hheld.holds.truncate_of_room hheld.inOrder hheld.diskRoom
        (Int.le_trans (Int.le_of_lt hlength) (by decide))
      exact ⟨_, congrArg Prod.fst htruncate⟩
    exact ((raises_setWriter_passed _ hpassed).discard).mono (fun _ => Or.inl) m
  · have hlarge : ∀ r : Refusal, r.IsErrnoUnless (Word.memoryLimit ≤ (length : Int)) →
        r.IsErrnoUnless (¬ (m.HasRoom ∧ (length : Int) < Word.memoryLimit)) ∨
          r.IsRefusedSearch path given := fun r hr =>
      Or.inl (hr.imp_right fun ⟨hle, hmisuse⟩ => ⟨fun hroom => by omega, hmisuse⟩)
    refine Recorded.Raises.mono ?_ hlarge m
    dsimp only
    split
    · have hread := Tree.raises_readOnce hroot path (Int.le_refl 0)
        (Int.le_trans (by decide) (Int.natCast_nonneg length))
      refine raises_reported_bind hread (Tree.keeps_readOnce_length t path (.int 0) length)
        fun data hdata => ?_
      exact @raises_storePadded t root hroot path data length hdata
    · rw [pure_bind]
      exact @raises_storePadded t root hroot path [] length (Nat.zero_le length)

end Buffers

end Mount

end BucketTree
