import BucketTree.Proofs.Mount.Ledger

/-!
# A mount refines its ledger

A `Ledger` accounts for a mount on a store in memory (`Mount.Keeps`) when each writer in the table
holds the bytes that the ledger has under its handle, and the bucket has the contents of the ledger.
Every call preserves this and has the outcome that the ledger says, unless it is a call on an open
file that is not served (`Mount.Keeps.call`), which happens only when something does not fit into
memory.
-/

set_option autoImplicit false

namespace BucketTree.Mount

variable {t : Tree} {name : String} {m m' : Mount} {memory memory' : Memory} {l : Ledger}
variable {handle : Int} {w w' : Writer} {key : Key} {bytes : Bytes}

/-! ## What the ledger says of a mount -/

/-- The writer under a handle holds the file that the ledger has there. -/
inductive Sees : Option Writer → Option (Key × Bytes) → Prop
  | none : Sees none none
  | some {w : Writer} {key : Key} {bytes : Bytes} (holds : w.Holds key bytes)
      (inOrder : w.spool.InOrder) : Sees (some w) (some (key, bytes))

theorem Sees.reclaim {found : Option Writer} {file : Option (Key × Bytes)} (h : Sees found file)
    (isHeld : BlockNumber → Bool) : Sees (found.map (Writer.reclaim isHeld)) file := by
  cases h with
  | none => exact .none
  | some holds inOrder =>
      obtain ⟨hholds, hinOrder⟩ := holds.reclaim inOrder isHeld
      exact .some hholds hinOrder

/-- The ledger accounts for the table of a mount and for its store. -/
structure Keeps (name : String) (m : Mount) (memory : Memory) (l : Ledger) : Prop where
  next_eq : m.next = l.next
  files : ∀ handle, Sees (m.writer? handle) (l.files handle)
  contents_eq : (memory.bucket name).contents = l.contents
  uploads_eq : memory.count.put = l.uploads
  clock_eq : memory.clock = l.clock
  proper : l.IsProper
  contentsFit : l.ContentsFit

namespace Keeps

theorem writer?_of_none (h : Keeps name m memory l) (hfile : l.files handle = none) :
    m.writer? handle = none := by
  have hsees := h.files handle
  rw [hfile] at hsees
  generalize m.writer? handle = found at hsees
  cases hsees
  rfl

theorem writer?_of_some (h : Keeps name m memory l) (hfile : l.files handle = some (key, bytes)) :
    ∃ w, m.writer? handle = some w ∧ w.Holds key bytes ∧ w.spool.InOrder := by
  have hsees := h.files handle
  rw [hfile] at hsees
  generalize m.writer? handle = found at hsees
  cases hsees with
  | some holds inOrder => exact ⟨_, rfl, holds, inOrder⟩

/-- Reclaiming blocks of memory does not affect the ledger. -/
theorem reclaim (h : Keeps name m memory l) (isHeld : BlockNumber → Bool) :
    Keeps name (m.mapWriters (Writer.reclaim isHeld)) memory l := by
  refine { h with files := fun handle => ?_ }
  rw [writer?_mapWriters]
  exact (h.files handle).reclaim isHeld

/-- Reads of the store do not affect the ledger. -/
theorem unchanged (h : Keeps name m memory l) (hread : Memory.Unchanged memory memory') :
    Keeps name m memory' l := by
  refine { h with
    contents_eq := ?_
    uploads_eq := hread.put_eq.trans h.uploads_eq
    clock_eq := hread.clock_eq.trans h.clock_eq }
  rw [hread.bucket_eq]
  exact h.contents_eq

/-- A new handle without a writer. -/
theorem skipHandle (h : Keeps name m memory l) :
    Keeps name m.skipHandle memory (l.handOut none) := by
  refine { h with
    next_eq := congrArg (· + 1) h.next_eq
    files := fun handle => ?_
    proper := h.proper.handOut none }
  show Sees (m.writer? handle) (Function.update l.files l.next none handle)
  rw [Function.update_apply]
  split
  next heq =>
    rw [heq, ← h.next_eq, m.writer?_next]
    exact .none
  next => exact h.files handle

/-- A new handle with a writer. -/
theorem addWriter (h : Keeps name m memory l) (hholds : w.Holds key bytes)
    (hinOrder : w.spool.InOrder) :
    Keeps name (m.addWriter w) memory (l.handOut (some (key, bytes))) := by
  refine { h with
    next_eq := congrArg (· + 1) h.next_eq
    files := fun handle => ?_
    proper := h.proper.handOut _ }
  show Sees _ (Function.update l.files l.next (some (key, bytes)) handle)
  rw [writer?_addWriter, Function.update_apply, h.next_eq]
  split
  · exact .some hholds hinOrder
  · exact h.files handle

/-- A writer with changed bytes. -/
theorem setWriter (h : Keeps name m memory l) (hfile : l.files handle = some (key, bytes))
    {f : Bytes → Bytes} (hholds : w.Holds key (f bytes)) (hinOrder : w.spool.InOrder) :
    Keeps name (m.setWriter handle w) memory (l.change handle f) := by
  obtain ⟨old, hold, -⟩ := h.writer?_of_some hfile
  refine { h with
    files := fun other => ?_
    proper := h.proper.change handle f }
  show Sees _ (Function.update l.files handle _ other)
  rw [writer?_setWriter, Function.update_apply]
  by_cases hother : handle = other
  · rw [if_pos hother, if_pos hother.symm, ← hother, hold, hfile]
    exact .some hholds hinOrder
  · rw [if_neg hother, if_neg (Ne.symm hother)]
    exact h.files other

/-- A writer with the same bytes. -/
theorem renewWriter (h : Keeps name m memory l) (hfile : l.files handle = some (key, bytes))
    (hholds : w.Holds key bytes) (hinOrder : w.spool.InOrder) :
    Keeps name (m.setWriter handle w) memory l := by
  rw [← l.change_id handle]
  exact h.setWriter hfile hholds hinOrder

/-- Releasing a handle. -/
theorem dropHandle (h : Keeps name m memory l) (handle : Int) :
    Keeps name (m.dropHandle handle) memory (l.drop handle) := by
  refine { h with
    files := fun other => ?_
    proper := h.proper.drop handle }
  show Sees _ (Function.update l.files handle none other)
  rw [writer?_dropHandle, Function.update_apply]
  by_cases hother : handle = other
  · rw [if_pos hother, if_pos hother.symm]
    exact .none
  · rw [if_neg hother, if_neg (Ne.symm hother)]
    exact h.files other

/-- An upload. -/
theorem upload (h : Keeps name m memory l)
    (huploads : Writer.Uploads (Memory.backend name) (·.bucket name) key bytes memory (.ok ())
      memory') :
    Keeps name m memory' (l.upload (some (key, bytes))) := by
  cases huploads with
  | stored hcarries hput hstored => ?_
  obtain ⟨hroom, hcount, hclock⟩ := Memory.put_eq_ok hcarries hput
  refine ⟨h.next_eq, h.files, ?_, ?_, ?_, h.proper.upload _, ?_⟩
  · rw [hstored, h.contents_eq]
    rfl
  · rw [hcount, h.uploads_eq]
    rfl
  · rw [hclock, h.clock_eq]
    rfl
  · intro other stored hother
    change Function.update l.contents key (some bytes) other = some stored at hother
    rw [Function.update_apply] at hother
    split at hother
    · cases hother
      exact hroom
    · exact h.contentsFit other stored hother

end Keeps

/-! ## One call -/

theorem perform_return {σ α β : Type} {backend : Backend σ} {a : MountAction α} {f : α → β}
    {outcome : Except Refusal α} {s s' : σ}
    (h : a.perform backend m s = (some (outcome, m'), s')) :
    MountAction.perform backend (do return f (← a)) m s = (some (outcome.map f, m'), s') := by
  rw [MountAction.perform_bind, h]
  cases outcome with
  | ok x => rfl
  | error refusal => rfl

/-- A reply of a writer is the image of its result. -/
theorem eq_ok_of_map {α : Type} {r : Except Misuse α} {f : α → Reply} {reply : Reply}
    (h : (r.mapError refusal).map f = .ok reply) : ∃ x, r = .ok x ∧ reply = f x := by
  cases r with
  | ok x =>
      cases h
      exact ⟨x, rfl, rfl⟩
  | error misuse => cases h

/-- A reply to an upload means that it succeeded. -/
theorem eq_ok_of_reported {outcome : Except Fault Unit} {reply : Reply}
    (h : (outcome.mapError reportedAs).map (fun _ => Reply.done) = .ok reply) :
    outcome = .ok () ∧ reply = .done := by
  cases outcome with
  | ok x =>
      cases h
      exact ⟨rfl, rfl⟩
  | error fault => cases h

/-- The specification of a call: a call that fits is served, and a call that is served has the
outcome of the ledger and keeps it. -/
def Does (t : Tree) (l : Ledger) (call : Call)
    (r : Option (Except Refusal Reply × Mount) × Memory) : Prop :=
  ∃ outcome m' memory', r = (some (outcome, m'), memory') ∧
    (l.FilesFit → l.Fits call → l.IsServed (call, outcome)) ∧
    (l.IsServed (call, outcome) →
      l.Answers t (call, outcome) ∧ Keeps t.bucket m' memory' (l.after t (call, outcome)))

section Does

variable {call : Call} {outcome : Except Refusal Reply}
variable {r : Option (Except Refusal Reply × Mount) × Memory}

/-- The predicate `Does` for a call that is not on an open file. -/
theorem Does.unaddressed (hrun : r = (some (outcome, m'), memory'))
    (hnone : ∀ handle ∈ call.handle?, l.files handle = none) (hanswer : l.Answers t (call, outcome))
    (hkeeps : Keeps t.bucket m' memory' (l.after t (call, outcome))) : Does t l call r :=
  ⟨outcome, m', memory', hrun,
    fun _ _ handle hhandle hopen => absurd (hnone handle hhandle) hopen,
    fun _ => ⟨hanswer, hkeeps⟩⟩

/-- The predicate `Does` for a call on an open file, which is served if it has a reply. -/
theorem Does.addressed (hrun : r = (some (outcome, m'), memory'))
    (hhandle : call.handle? = some handle) (hfile : l.files handle = some (key, bytes))
    (hroom : (bytes.length : Int) < Word.memoryLimit → l.Fits call →
      ∃ reply, outcome = .ok reply)
    (hdoes : ∀ reply, outcome = .ok reply →
      l.Answers t (call, outcome) ∧ Keeps t.bucket m' memory' (l.after t (call, outcome))) :
    Does t l call r := by
  refine ⟨outcome, m', memory', hrun, fun hfit hfits _ _ _ => ?_, fun hserved => ?_⟩
  · exact hroom (hfit handle key bytes hfile) hfits
  · obtain ⟨reply, hreply⟩ := hserved handle hhandle (hfile ▸ Option.some_ne_none _)
    exact hdoes reply hreply

end Does

namespace Keeps

/-- A new handle with the writer of an opened file. -/
theorem opened (h : Keeps t.bucket m memory l) (hfile : (bytes.length : Int) < Word.memoryLimit)
    (key : Key) :
    Keeps t.bucket (m.addWriter (.start key bytes Writer.defaultSpoolSize)) memory
      (l.handOut (some (key, bytes))) := by
  obtain ⟨hholds, hinOrder⟩ :=
    Writer.holds_start key (Writer.start_of_room Writer.defaultSpoolSize hfile)
  exact h.addWriter hholds hinOrder

theorem create (h : Keeps t.bucket m memory l) (path mode : Value) :
    Does t l (.create path mode)
      ((Call.perform t (.create path mode)).perform (Memory.backend t.bucket) m memory) := by
  have hnone : ∀ handle ∈ (Call.create path mode).handle?, l.files handle = none :=
    fun _ hhandle => nomatch hhandle
  by_cases hcan : l.CanOpen t (.create path mode)
  · obtain ⟨hmode, key, hnames⟩ := id hcan
    refine .unaddressed (perform_return (create_of_names hmode hnames m memory)) hnone
      (Or.inl ⟨hcan, by rw [h.next_eq]; rfl⟩) ?_
    show Keeps t.bucket _ memory (l.handOut (l.opening? t (.create path mode)))
    rw [Ledger.opening?_create hnames]
    exact h.opened (by decide) key
  · have hrefused : ∀ key, Tree.setMode mode = .ok () → ¬ t.Names path key :=
      fun key hmode hnames => hcan ⟨hmode, key, hnames⟩
    obtain ⟨refusal, hrun⟩ := create_refused hrefused (Memory.backend t.bucket) m memory
    exact .unaddressed (perform_return hrun) hnone (Or.inr ⟨hcan, refusal, rfl⟩) h

/-- Opening for reading gives out a handle if the object exists. -/
theorem openToRead (h : Keeps t.bucket m memory l) {flags : Int} (hflags : isReadOnly flags = true)
    (path : Value) :
    Does t l (.openFile path flags)
      ((Call.perform t (.openFile path flags)).perform (Memory.backend t.bucket) m memory) := by
  have hnone : ∀ handle ∈ (Call.openFile path flags).handle?, l.files handle = none :=
    fun _ hhandle => nomatch hhandle
  by_cases hcan : l.CanOpen t (.openFile path flags)
  · obtain ⟨key, hnames, hobject⟩ := id hcan
    have hthere := hobject hflags
    rw [← h.contents_eq] at hthere
    obtain ⟨memory', hrun, hread⟩ := openFile_toRead hflags hnames hthere m
    refine .unaddressed (perform_return hrun) hnone (Or.inl ⟨hcan, by rw [h.next_eq]; rfl⟩) ?_
    show Keeps t.bucket _ memory' (l.handOut (l.opening? t (.openFile path flags)))
    rw [Ledger.opening?_toRead hflags]
    exact (h.unchanged hread).skipHandle
  · have hmissing : ∀ key, t.Names path key → (memory.bucket t.bucket).contents key = none := by
      intro key hnames
      rw [h.contents_eq]
      by_contra hthere
      exact hcan ⟨key, hnames, fun _ => hthere⟩
    obtain ⟨refusal, memory', hrun, hread⟩ := openFile_toRead_refused hflags hmissing m
    exact .unaddressed (perform_return hrun) hnone (Or.inr ⟨hcan, refusal, rfl⟩) (h.unchanged hread)

/-- Opening for writing gives out a handle, with the content that is kept. -/
theorem openToWrite (h : Keeps t.bucket m memory l) {flags : Int}
    (hflags : isReadOnly flags = false) (path : Value) :
    Does t l (.openFile path flags)
      ((Call.perform t (.openFile path flags)).perform (Memory.backend t.bucket) m memory) := by
  have hnone : ∀ handle ∈ (Call.openFile path flags).handle?, l.files handle = none :=
    fun _ hhandle => nomatch hhandle
  by_cases hcan : l.CanOpen t (.openFile path flags)
  · obtain ⟨key, hnames, -⟩ := id hcan
    obtain ⟨memory', hrun, hread⟩ := openFile_toWrite hflags hnames m memory
    refine .unaddressed (perform_return hrun) hnone (Or.inl ⟨hcan, by rw [h.next_eq]; rfl⟩) ?_
    show Keeps t.bucket _ memory' (l.handOut (l.opening? t (.openFile path flags)))
    rw [Ledger.opening?_toWrite hflags hnames, h.contents_eq]
    exact (h.unchanged hread).opened (h.contentsFit.opening flags key) key
  · have hunnamed : ∀ key, ¬ t.Names path key := by
      intro key hnames
      refine hcan ⟨key, hnames, fun hread => ?_⟩
      rw [hflags] at hread
      cases hread
    obtain ⟨refusal, hrun⟩ :=
      openFile_toWrite_refused hflags hunnamed (Memory.backend t.bucket) m memory
    exact .unaddressed (perform_return hrun) hnone (Or.inr ⟨hcan, refusal, rfl⟩) h

theorem read (h : Keeps t.bucket m memory l) (path : Value) (offset length : Nat) (handle : Int) :
    Does t l (.read path offset length handle)
      ((Call.perform t (.read path offset length handle)).perform (Memory.backend t.bucket) m
        memory) := by
  cases hfile : l.files handle with
  | none =>
      -- the read goes to the store
      obtain ⟨stored, memory', hstored, hread⟩ :=
        t.exists_readOnce path (Int.natCast_nonneg offset) length t.bucket memory
      have hrun := perform_read_of_none (h.writer?_of_none hfile) t path length offset
        (Memory.backend t.bucket) memory
      rw [perform_reported hstored] at hrun
      refine .unaddressed (perform_return hrun)
        (fun _ hhandle => Option.some.inj hhandle ▸ hfile) ?_ (h.unchanged hread)
      unfold Ledger.Answers
      dsimp only
      rw [hfile]
      exact ⟨_, rfl⟩
  | some file =>
      obtain ⟨key, bytes⟩ := file
      obtain ⟨w, hw, hholds, hinOrder⟩ := h.writer?_of_some hfile
      refine .addressed (perform_return (perform_read hw t path length offset)) rfl hfile
        (fun hroom hfits => ?_) fun reply hreply => ?_
      · obtain ⟨w', hread, -⟩ :=
          Writer.HasRoom.readAt ⟨hholds, hinOrder, hroom⟩ hfits.1 hfits.2
        rw [hread]
        exact ⟨_, rfl⟩
      · obtain ⟨data, hdata, rfl⟩ := eq_ok_of_map hreply
        obtain ⟨rfl, hholds', hinOrder'⟩ := hholds.readAt (Prod.ext hdata rfl)
        refine ⟨?_, h.renewWriter hfile hholds' hinOrder'⟩
        unfold Ledger.Answers
        dsimp only
        rw [hfile]
        exact hreply

theorem write (h : Keeps t.bucket m memory l) (data : Bytes) (offset : Nat) (handle : Int) :
    Does t l (.write data offset handle)
      ((Call.perform t (.write data offset handle)).perform (Memory.backend t.bucket) m
        memory) := by
  cases hfile : l.files handle with
  | none =>
      refine .unaddressed
        (perform_return (perform_write_of_none (h.writer?_of_none hfile) data offset))
        (fun _ hhandle => Option.some.inj hhandle ▸ hfile) ?_ ?_
      · unfold Ledger.Answers
        dsimp only
        rw [hfile]
        rfl
      · show Keeps t.bucket m memory (l.change handle fun bytes => bytes.overlay offset data)
        rwa [Ledger.change_of_none hfile]
  | some file =>
      obtain ⟨key, bytes⟩ := file
      obtain ⟨w, hw, hholds, hinOrder⟩ := h.writer?_of_some hfile
      refine .addressed (perform_return (perform_write hw data offset)) rfl hfile
        (fun hroom hfits => ?_) fun reply hreply => ?_
      · obtain ⟨w', hwrite, -⟩ := Writer.HasRoom.writeAt ⟨hholds, hinOrder, hroom⟩ hfits
        rw [hwrite]
        exact ⟨_, rfl⟩
      · obtain ⟨count, hcount, rfl⟩ := eq_ok_of_map hreply
        obtain ⟨rfl, hholds', hinOrder'⟩ := hholds.writeAt (Prod.ext hcount rfl)
        have hkept : Keeps t.bucket _ memory
            (l.change handle fun bytes => bytes.overlay offset data) :=
          h.setWriter hfile hholds' hinOrder'
        refine ⟨?_, hkept⟩
        unfold Ledger.Answers
        dsimp only
        rw [hfile]
        exact hreply

theorem truncate (h : Keeps t.bucket m memory l) (path : Value) (length : Nat)
    (hfile : l.files handle = some (key, bytes)) (hlength : length ≤ bytes.length) :
    Does t l (.truncate path length handle)
      ((Call.perform t (.truncate path length handle)).perform (Memory.backend t.bucket) m
        memory) := by
  obtain ⟨w, hw, hholds, hinOrder⟩ := h.writer?_of_some hfile
  have hlegal : ∀ n ∈ some length, n ≤ bytes.length := fun n hn => Option.some.inj hn ▸ hlength
  -- zero stands for no handle, so the call would go to the path, but zero is never given out
  have hhandle : handle ≠ 0 := by
    have := h.proper.bounds handle (hfile ▸ Option.some_ne_none _)
    omega
  refine .addressed (perform_return (perform_truncate hw hhandle t path length)) rfl hfile
    (fun hroom hfits => ?_) fun reply hreply => ?_
  · obtain ⟨w', htruncate, -⟩ := Writer.HasRoom.truncate ⟨hholds, hinOrder, hroom⟩ hlegal
    change w.truncate (some (length : Int)) = _ at htruncate
    rw [htruncate]
    exact ⟨_, rfl⟩
  · rcases htruncate : w.truncate (some (length : Int)) with ⟨misuse | told, w'⟩
    · rw [htruncate] at hreply
      cases hreply
    · obtain ⟨-, hholds', hinOrder'⟩ := hholds.truncate hlegal htruncate
      have hkept : Keeps t.bucket _ memory (l.change handle fun bytes => bytes.take length) :=
        h.setWriter hfile hholds' hinOrder'
      exact ⟨rfl, hkept⟩

/-- The upload of a file that fits into memory succeeds while the clock shows a valid time. -/
theorem uploads_of_fits (h : Keeps name m memory l) {outcome : Except Fault Unit}
    (hroom : (bytes.length : Int) < Word.memoryLimit)
    (hclock : Moment.clockFault? l.clock.now = none)
    (huploads : Writer.Uploads (Memory.backend name) (·.bucket name) key bytes memory outcome
      memory') : outcome = .ok () := by
  cases huploads with
  | stored hcarries hput hstored => rfl
  | failed hcarries hput hkept =>
      rw [← h.clock_eq] at hclock
      obtain ⟨block, stored, hdone⟩ := Memory.put_of_carries hcarries hroom hclock name key
      cases hdone.symm.trans hput

theorem sync (h : Keeps t.bucket m memory l) (handle : Int) :
    Does t l (.sync handle)
      ((Call.perform t (.sync handle)).perform (Memory.backend t.bucket) m memory) := by
  cases hfile : l.files handle with
  | none =>
      refine .unaddressed (perform_return (perform_sync_of_none (h.writer?_of_none hfile)))
        (fun _ hhandle => Option.some.inj hhandle ▸ hfile) rfl ?_
      show Keeps t.bucket m memory (l.upload (l.files handle))
      rwa [hfile]
  | some file =>
      obtain ⟨key, bytes⟩ := file
      obtain ⟨w, hw, hholds, hinOrder⟩ := h.writer?_of_some hfile
      obtain ⟨outcome, w', memory', hrun, hholds', hinOrder', huploads⟩ :=
        hholds.sync (Memory.backend_follows t.bucket) (Spool.measure_of_inOrder hinOrder) memory
      -- the upload is of the bytes in the ledger, whatever comes of it
      refine .addressed (perform_return (perform_sync hw hrun)) rfl hfile
        (fun hroom hfits => ?_) fun reply hreply => ?_
      · rw [h.uploads_of_fits hroom hfits huploads]
        exact ⟨_, rfl⟩
      · obtain ⟨rfl, rfl⟩ := eq_ok_of_reported hreply
        refine ⟨rfl, ?_⟩
        show Keeps t.bucket (m.setWriter handle w') memory' (l.upload (l.files handle))
        rw [hfile]
        exact (h.upload huploads).renewWriter hfile hholds' hinOrder'

theorem release (h : Keeps t.bucket m memory l) (handle : Int) :
    Does t l (.release handle)
      ((Call.perform t (.release handle)).perform (Memory.backend t.bucket) m memory) := by
  cases hfile : l.files handle with
  | none =>
      refine .unaddressed (perform_return (perform_release_of_none (h.writer?_of_none hfile)))
        (fun _ hhandle => Option.some.inj hhandle ▸ hfile) rfl ?_
      show Keeps t.bucket m memory ((l.upload (l.files handle)).drop handle)
      rw [hfile]
      show Keeps t.bucket m memory (l.drop handle)
      rwa [Ledger.drop_of_none hfile]
  | some file =>
      obtain ⟨key, bytes⟩ := file
      obtain ⟨w, hw, hholds, hinOrder⟩ := h.writer?_of_some hfile
      obtain ⟨outcome, w', memory', hrun, -, huploads⟩ :=
        hholds.close (Memory.backend_follows t.bucket) (Spool.measure_of_inOrder hinOrder) memory
      refine .addressed (perform_return (perform_release hw hrun)) rfl hfile
        (fun hroom hfits => ?_) fun reply hreply => ?_
      · rw [h.uploads_of_fits hroom hfits huploads]
        exact ⟨_, rfl⟩
      · obtain ⟨rfl, rfl⟩ := eq_ok_of_reported hreply
        refine ⟨rfl, ?_⟩
        show Keeps t.bucket (m.dropHandle handle) memory'
          ((l.upload (l.files handle)).drop handle)
        rw [hfile]
        -- the handle is gone before the upload, which does not look at the table
        exact (h.upload huploads).dropHandle handle

/-- Every legal call does what the ledger says. -/
theorem call (h : Keeps t.bucket m memory l) (call : Call)
    (hlegal : l.IsLegal call) :
    Does t l call ((call.perform t).perform (Memory.backend t.bucket) m memory) := by
  cases call with
  | create path mode => exact h.create path mode
  | openFile path flags =>
      cases hflags : isReadOnly flags with
      | true => exact h.openToRead hflags path
      | false => exact h.openToWrite hflags path
  | read path offset length handle => exact h.read path offset length handle
  | write data offset handle => exact h.write data offset handle
  | truncate path length handle =>
      obtain ⟨⟨key, bytes⟩, hfile, hlength⟩ := hlegal
      exact h.truncate path length hfile hlength
  | flush => exact .unaddressed rfl (fun _ hhandle => nomatch hhandle) rfl h
  | sync handle => exact h.sync handle
  | release handle => exact h.release handle

end Keeps

end BucketTree.Mount
