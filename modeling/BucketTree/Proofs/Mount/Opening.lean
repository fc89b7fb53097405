import BucketTree.Proofs.Content.Pieces
import BucketTree.Proofs.Mount.Operations
import BucketTree.Proofs.Tree.Queries

/-!
# Opening files

A created file starts empty. A file that is opened for writing starts with the content of its
object, unless it is truncated. Opening a file never changes the store.
-/

set_option autoImplicit false

namespace BucketTree

variable {α σ : Type} {backend : Backend σ} {s : σ} {name : String} {memory : Memory} {t : Tree}
variable {path : Value} {key : Key}

/-- The operation `statusOf` on a store in memory. -/
theorem perform_statusOf (name : String) (key : Key) (memory : Memory) :
    (statusOf key).perform (Memory.backend name) memory =
      (some (.ok (((memory.bucket name).find? key).map StoredObject.status)),
        (memory.head name key).2) := by
  have hhead : (Action.lift (Program.head key)).perform (Memory.backend name) memory =
      (some (.ok (memory.head name key).1), (memory.head name key).2) := rfl
  unfold statusOf
  rw [Action.run_bind, hhead]
  unfold Memory.head
  obtain ⟨object, hkey, hlookup⟩ | ⟨hkey, hlookup⟩ := Memory.lookup_eq name key memory
  · rw [hlookup, hkey]
    rfl
  · rw [hlookup, hkey]
    rfl

namespace Tree

/-- The path resolves to a key other than the root. -/
def Names (t : Tree) (path : Value) (key : Key) : Prop :=
  t.resolve path = .ok key ∧ key ≠ Key.root

/-- A path that names no file is refused or resolves to the root. -/
theorem resolve_of_not_names (h : ∀ key, ¬ t.Names path key) :
    (∃ fault, t.resolve path = .error fault) ∨ t.resolve path = .ok Key.root := by
  cases hkey : t.resolve path with
  | error fault => exact Or.inl ⟨fault, rfl⟩
  | ok key =>
      refine Or.inr (congrArg Except.ok ?_)
      by_contra hroot
      exact h key ⟨hkey, hroot⟩

/-- An action on a refused path ends with the refusal and sends no request. -/
theorem perform_key_bind_of_refused {fault : Fault} (h : t.resolve path = .error fault)
    (f : Key → Action α) (s : σ) :
    Action.perform backend (t.key path >>= f) s = (some (.error fault), s) := by
  rw [Action.run_bind]
  unfold key
  rw [h]
  rfl

theorem openForWrite_of_names (h : t.Names path key) (data : Bytes) (s : σ) :
    (t.openForWrite path data).perform backend s =
      (some (.ok (.start key data Writer.defaultSpoolSize)), s) := by
  obtain ⟨hkey, hroot⟩ := h
  show Action.perform backend (Action.ofExcept (t.resolve path) >>= _) s = _
  rw [hkey]
  show Action.perform backend ((if key == Key.root then _ else _) >>= _) s = _
  rw [if_neg fun h => hroot (eq_of_beq h)]
  rfl

/-- Opening a path that names no file for writing fails and sends no request. -/
theorem openForWrite_of_not_names (h : ∀ key, ¬ t.Names path key) (data : Bytes)
    (backend : Backend σ) (s : σ) :
    ∃ fault, (t.openForWrite path data).perform backend s = (some (.error fault), s) := by
  obtain ⟨fault, hkey⟩ | hkey := resolve_of_not_names h
  · exact ⟨fault, perform_key_bind_of_refused hkey _ s⟩
  · refine ⟨.known (.ofRefusal ⟨.rootWrite, path⟩), ?_⟩
    show Action.perform backend (Action.ofExcept (t.resolve path) >>= _) s = _
    rw [hkey]
    rfl

theorem isFile_of_names (h : t.Names path key) (name : String) (memory : Memory) :
    ∃ memory', (t.isFile path).perform (Memory.backend name) memory =
        (some (.ok ((memory.bucket name).contents key).isSome), memory') ∧
      Memory.Unchanged memory memory' := by
  obtain ⟨hkey, hroot⟩ := h
  refine ⟨(memory.head name key).2, ?_, rfl, rfl, rfl⟩
  show Action.perform (Memory.backend name) (Action.ofExcept (t.resolve path) >>= _) memory = _
  rw [hkey]
  show Action.perform (Memory.backend name) (if key == Key.root then _ else _) memory = _
  rw [if_neg fun h => hroot (eq_of_beq h), Action.run_bind, perform_statusOf]
  unfold Bucket.contents
  cases (memory.bucket name).find? key with
  | none => rfl
  | some object => rfl

theorem isFile_of_not_names (h : ∀ key, ¬ t.Names path key) (backend : Backend σ) (s : σ) :
    (∃ fault, (t.isFile path).perform backend s = (some (.error fault), s)) ∨
      (t.isFile path).perform backend s = (some (.ok false), s) := by
  obtain ⟨fault, hkey⟩ | hkey := resolve_of_not_names h
  · refine Or.inl ⟨fault, ?_⟩
    show Action.perform backend (Action.ofExcept (t.resolve path) >>= _) s = _
    rw [hkey]
    rfl
  · refine Or.inr ?_
    show Action.perform backend (Action.ofExcept (t.resolve path) >>= _) s = _
    rw [hkey]
    rfl

/-! ## Reading -/

/-- The outcome of opening for reading, given the answer of the store. -/
def opened (key : Key) (offset : Int) : Except Fault Stream → Except Fault Reader
  | .ok stream => .ok (.start stream key (.int offset))
  | .error fault =>
      let failure := fault.toFailure (some "GET") (some key)
      .error (.known (if failure.isNotFound then .notFound key (.noSuchFile key)
        else .read key (.openFailed key failure.message)))

/-- Opening for reading sends one request, for the object from the offset on. -/
theorem openForRead_of_answer (h : t.Names path key) {offset : Int} (hoffset : 0 ≤ offset)
    {outcome : Except Fault Stream} {s' : σ}
    (hanswer : backend.answer (.openRange key (.int offset)) s = (outcome, s')) :
    (t.openForRead path (.int offset)).perform backend s =
      (some (opened key offset outcome), s') := by
  obtain ⟨hkey, hroot⟩ := h
  have hnonneg : decide (offset < 0) = false := decide_eq_false (Int.not_lt.2 hoffset)
  have hopen : (Action.lift (Program.openRange key (.int offset))).perform backend s =
      (some (.ok outcome), s') := by
    show (some (Except.ok (backend.answer _ s).1), (backend.answer _ s).2) = _
    rw [hanswer]
  unfold openForRead
  rw [Value.isBelow_int, hnonneg]
  show Action.perform _ (Action.ofExcept (t.resolve path) >>= _) s = _
  rw [hkey]
  show Action.perform _ ((if key == Key.root then _ else _) >>= _) s = _
  rw [if_neg fun h => hroot (eq_of_beq h)]
  show Action.perform _ (Action.lift (Program.openRange key (.int offset)) >>= _) s = _
  rw [Action.run_bind, hopen]
  cases outcome with
  | ok stream => rfl
  | error fault =>
      unfold opened
      dsimp only
      split <;> rfl

/-- Opening for reading on a store in memory. -/
theorem openForRead_of_names (h : t.Names path key) {offset : Int} (hoffset : 0 ≤ offset)
    (name : String) (memory : Memory) :
    (t.openForRead path (.int offset)).perform (Memory.backend name) memory =
      (some (match (memory.bucket name).find? key with
        | some object => .ok (.start (.ofBody (object.body.suffix offset)) key (.int offset))
        | none => .error (.known (.notFound key (.noSuchFile key)))),
        (memory.get name key).2) := by
  have hanswer : (Memory.backend name).answer (.openRange key (.int offset)) memory =
      ((memory.get name key).1.bind (Stream.ofBodyFrom (.int offset)), (memory.get name key).2) :=
    rfl
  rw [openForRead_of_answer h hoffset hanswer]
  unfold Memory.get
  obtain ⟨object, hobject, hlookup⟩ | ⟨hobject, hlookup⟩ := Memory.lookup_eq name key memory
  · rw [hlookup, hobject]
    rfl
  · rw [hlookup, hobject]
    rfl

/-- Opening a refused path for reading fails with the refusal and sends no request. -/
theorem openForRead_of_refused {fault : Fault} (h : t.resolve path = .error fault) {offset : Int}
    (hoffset : 0 ≤ offset) (s : σ) :
    (t.openForRead path (.int offset)).perform backend s = (some (.error fault), s) := by
  have hnonneg : decide (offset < 0) = false := decide_eq_false (Int.not_lt.2 hoffset)
  unfold openForRead
  rw [Value.isBelow_int, hnonneg]
  exact perform_key_bind_of_refused h _ s

/-- Opening a path that names no file for reading fails and sends no request. -/
theorem openForRead_of_not_names (h : ∀ key, ¬ t.Names path key) {offset : Int}
    (hoffset : 0 ≤ offset) (s : σ) :
    ∃ fault, (t.openForRead path (.int offset)).perform backend s = (some (.error fault), s) := by
  obtain ⟨fault, hkey⟩ | hkey := resolve_of_not_names h
  · exact ⟨fault, openForRead_of_refused hkey hoffset s⟩
  · have hnonneg : decide (offset < 0) = false := decide_eq_false (Int.not_lt.2 hoffset)
    refine ⟨.known (.ofRefusal ⟨.rootRead, path⟩), ?_⟩
    unfold openForRead
    rw [Value.isBelow_int, hnonneg]
    show Action.perform backend (Action.ofExcept (t.resolve path) >>= _) s = _
    rw [hkey]
    rfl

theorem readOnce_of_openForRead {offset : Value} {reader : Reader} {s' : σ} {size : Int}
    (hopen : (t.openForRead path offset).perform backend s = (some (.ok reader), s')) :
    (t.readOnce path offset size).perform backend s =
      (some (match (reader.read size).2.close.1 with
        | .ok () => (reader.read size).1
        | .error fault => .error fault), s') := by
  unfold readOnce
  rw [Action.run_bind, hopen]
  dsimp only
  rw [Action.run_bind]
  cases (reader.read size).2.close.1 with
  | ok _ => rfl
  | error fault => rfl

theorem readOnce_of_openForRead_error {offset : Value} {fault : Fault} {s' : σ} {size : Int}
    (hopen : (t.openForRead path offset).perform backend s = (some (.error fault), s')) :
    (t.readOnce path offset size).perform backend s = (some (.error fault), s') := by
  unfold readOnce
  rw [Action.run_bind, hopen]

/-- On a store in memory, `readOnce` returns the whole content of an object. -/
theorem readOnce_of_object (h : t.Names path key) {object : StoredObject}
    (hobject : (memory.bucket name).find? key = some object) :
    (t.readOnce path (.int 0) (-1)).perform (Memory.backend name) memory =
      (some (.ok object.content), (memory.get name key).2) := by
  have hopen := openForRead_of_names h (Int.le_refl 0) name memory
  rw [hobject] at hopen
  dsimp only at hopen
  rw [Body.suffix_zero] at hopen
  obtain ⟨reader, hread, hclose⟩ :=
    (Stream.handsOut_ofBody object.body).readAll_start key (.int 0)
  rw [readOnce_of_openForRead hopen, hread, hclose]
  rfl

/-- On a store in memory, `readOnce` has an outcome. -/
theorem exists_readOnce (t : Tree) (path : Value) {offset : Int} (hoffset : 0 ≤ offset) (size : Int)
    (name : String) (memory : Memory) :
    ∃ outcome memory',
      (t.readOnce path (.int offset) size).perform (Memory.backend name) memory =
        (some outcome, memory') ∧
      Memory.Unchanged memory memory' := by
  by_cases hnames : ∃ key, t.Names path key
  · obtain ⟨key, hnames⟩ := hnames
    have hopen := openForRead_of_names hnames hoffset name memory
    have hread : Memory.Unchanged memory (memory.get name key).2 := ⟨rfl, rfl, rfl⟩
    cases hfind : (memory.bucket name).find? key with
    | some object =>
        rw [hfind] at hopen
        exact ⟨_, _, readOnce_of_openForRead hopen, hread⟩
    | none =>
        rw [hfind] at hopen
        exact ⟨_, _, readOnce_of_openForRead_error hopen, hread⟩
  · obtain ⟨fault, hopen⟩ : ∃ fault, (t.openForRead path (.int offset)).perform
        (Memory.backend name) memory = (some (.error fault), memory) :=
      openForRead_of_not_names (not_exists.1 hnames) hoffset memory
    exact ⟨_, _, readOnce_of_openForRead_error hopen, .refl memory⟩

end Tree

namespace Mount

variable {m : Mount} {mode : Value} {flags : Int}

theorem create_of_names (hmode : Tree.setMode mode = .ok ()) (h : t.Names path key) (m : Mount)
    (s : σ) :
    (create t path mode).perform backend m s =
      (some (.ok m.next, m.addWriter (.start key [] Writer.defaultSpoolSize)), s) := by
  unfold create
  rw [hmode, MountAction.perform_bind, perform_passed]
  dsimp only [Except.mapError]
  rw [MountAction.perform_bind, perform_reported (Tree.openForWrite_of_names h [] s)]
  exact perform_register _ _ _

/-- Creating a file fails for a path that names no file, and for an invalid mode. -/
theorem create_refused (h : ∀ key, Tree.setMode mode = .ok () → ¬ t.Names path key)
    (backend : Backend σ) (m : Mount) (s : σ) :
    ∃ refusal, (create t path mode).perform backend m s = (some (.error refusal, m), s) := by
  unfold create
  rw [MountAction.perform_bind, perform_passed]
  cases hmode : Tree.setMode mode with
  | error misuse => exact ⟨_, rfl⟩
  | ok _ =>
      obtain ⟨fault, hopen⟩ := Tree.openForWrite_of_not_names
        (fun key => h key hmode) [] backend s
      dsimp only [Except.mapError]
      rw [MountAction.perform_bind, perform_reported hopen]
      exact ⟨_, rfl⟩

/-! ## Opening for reading -/

theorem openFile_toRead (hflags : isReadOnly flags = true) (h : t.Names path key)
    (hobject : (memory.bucket name).contents key ≠ none) (m : Mount) :
    ∃ memory', (openFile t path flags).perform (Memory.backend name) m memory =
        (some (.ok m.next, m.skipHandle), memory') ∧
      Memory.Unchanged memory memory' := by
  obtain ⟨memory', hfile, hread⟩ := Tree.isFile_of_names h name memory
  refine ⟨memory', ?_, hread⟩
  unfold openFile
  rw [if_pos hflags, MountAction.perform_bind, perform_reported hfile,
    Option.isSome_iff_ne_none.2 hobject]
  rfl

/-- Opening for reading fails when there is no object. -/
theorem openFile_toRead_refused (hflags : isReadOnly flags = true)
    (h : ∀ key, t.Names path key → (memory.bucket name).contents key = none) (m : Mount) :
    ∃ refusal memory', (openFile t path flags).perform (Memory.backend name) m memory =
        (some (.error refusal, m), memory') ∧
      Memory.Unchanged memory memory' := by
  unfold openFile
  rw [if_pos hflags]
  by_cases hnames : ∃ key, t.Names path key
  · obtain ⟨key, hnames⟩ := hnames
    obtain ⟨memory', hfile, hread⟩ := Tree.isFile_of_names hnames name memory
    rw [MountAction.perform_bind, perform_reported hfile, h key hnames]
    exact ⟨_, memory', rfl, hread⟩
  · obtain ⟨fault, hfile⟩ | hfile :=
      Tree.isFile_of_not_names (not_exists.1 hnames) (Memory.backend name) memory
    · rw [MountAction.perform_bind, perform_reported hfile]
      exact ⟨_, memory, rfl, .refl memory⟩
    · rw [MountAction.perform_bind, perform_reported hfile]
      exact ⟨_, memory, rfl, .refl memory⟩

/-! ## Opening for writing -/

/-- The bytes with which a file is opened for writing. -/
def opening (flags : Int) (contents : Contents) (key : Key) : Bytes :=
  if truncates flags then [] else (contents key).getD []

theorem register_of_names (h : t.Names path key) (data : Bytes) (m : Mount) (s : σ) :
    MountAction.perform backend (do register (← reported (t.openForWrite path data))) m s =
      (some (.ok m.next, m.addWriter (.start key data Writer.defaultSpoolSize)), s) := by
  rw [MountAction.perform_bind, perform_reported (Tree.openForWrite_of_names h data s)]
  exact perform_register _ _ _

/-- Opening for writing without truncating gives a writer with the bytes that were read, or fails if
the read does. -/
theorem openFile_of_readOnce (hflags : isReadOnly flags = false) (hkeeps : truncates flags = false)
    (h : t.Names path key) {read : Except Fault Bytes} {s₁ s₂ : σ}
    (hfile : (t.isFile path).perform backend s = (some (.ok true), s₁))
    (hread : (t.readOnce path (.int 0) (-1)).perform backend s₁ = (some read, s₂)) (m : Mount) :
    (openFile t path flags).perform backend m s =
      match read with
      | .ok data => (some (.ok m.next, m.addWriter (.start key data Writer.defaultSpoolSize)), s₂)
      | .error fault => (some (.error (reportedAs fault), m), s₂) := by
  unfold openFile
  rw [hflags, if_neg Bool.false_ne_true, hkeeps, if_neg Bool.false_ne_true,
    MountAction.perform_bind, perform_reported hfile]
  show MountAction.perform _ (reported (t.readOnce path (.int 0) (-1)) >>= _) m s₁ = _
  rw [MountAction.perform_bind, perform_reported hread]
  cases read with
  | ok data => exact register_of_names h data m s₂
  | error fault => rfl

theorem openFile_toWrite (hflags : isReadOnly flags = false) (h : t.Names path key) (m : Mount)
    (memory : Memory) :
    ∃ memory', (openFile t path flags).perform (Memory.backend name) m memory =
        (some (.ok m.next, m.addWriter (.start key
          (opening flags (memory.bucket name).contents key) Writer.defaultSpoolSize)), memory') ∧
      Memory.Unchanged memory memory' := by
  unfold opening
  cases htruncates : truncates flags with
  | true =>
      refine ⟨memory, ?_, .refl memory⟩
      unfold openFile
      rw [hflags, if_neg Bool.false_ne_true, htruncates]
      exact register_of_names h [] m memory
  | false =>
      obtain ⟨memory', hfile, hread⟩ := Tree.isFile_of_names h name memory
      rw [if_neg Bool.false_ne_true]
      cases hfind : (memory.bucket name).find? key with
      | none =>
          rw [Bucket.contents_eq_none.2 hfind] at hfile ⊢
          refine ⟨memory', ?_, hread⟩
          unfold openFile
          rw [hflags, if_neg Bool.false_ne_true, htruncates, if_neg Bool.false_ne_true,
            MountAction.perform_bind, perform_reported hfile]
          exact register_of_names h [] m memory'
      | some object =>
          rw [Bucket.contents_of_find? hfind] at hfile ⊢
          -- the question whether it is a file does not change the object that is read then
          rw [← hread.bucket_eq name] at hfind
          have hobject := Tree.readOnce_of_object h hfind
          exact ⟨_, openFile_of_readOnce hflags htruncates h hfile hobject m,
            hread.trans ⟨rfl, rfl, rfl⟩⟩

theorem openFile_toWrite_refused (hflags : isReadOnly flags = false)
    (h : ∀ key, ¬ t.Names path key) (backend : Backend σ) (m : Mount) (s : σ) :
    ∃ refusal, (openFile t path flags).perform backend m s = (some (.error refusal, m), s) := by
  have hopen : ∃ refusal, MountAction.perform backend
      (do register (← reported (t.openForWrite path []))) m s = (some (.error refusal, m), s) := by
    obtain ⟨fault, hopen⟩ := Tree.openForWrite_of_not_names h [] backend s
    rw [MountAction.perform_bind, perform_reported hopen]
    exact ⟨_, rfl⟩
  unfold openFile
  rw [hflags, if_neg Bool.false_ne_true]
  cases truncates flags with
  | true => exact hopen
  | false =>
      rw [if_neg Bool.false_ne_true, MountAction.perform_bind]
      obtain ⟨fault, hfile⟩ | hfile := Tree.isFile_of_not_names h backend s
      · rw [perform_reported hfile]
        exact ⟨_, rfl⟩
      · rw [perform_reported hfile]
        exact hopen

end Mount

end BucketTree
