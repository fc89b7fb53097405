import BucketTree.Proofs.Mount.ShortReads

/-!
# Editing files

A file that is opened for writing without being truncated is read into a buffer, whose content
replaces the object at the release. So the buffer must hold the whole file, or the rest of it would
be lost. It does, for every way in which the store cuts the stream. When the stream fails midway, or
the store refuses a request, the caller gets an input/output error and nothing has changed
(`Mount.OpensWhole`). The release uploads the file with the data of all writes laid over it in order
(`Mount.edit_complete`).
-/

set_option autoImplicit false

namespace BucketTree

variable {σ : Type} {backend : Backend σ} {view : σ → Bucket} {fails : Request → Fault → Prop}
variable {t : Tree} {path : Value} {key : Key} {bytes : Bytes} {s s' : σ}

/-- The bytes after writes of the given data at the given offsets, in order. -/
def Bytes.overlayAll (bytes : Bytes) (writes : List (Bytes × Nat)) : Bytes :=
  writes.foldl (fun bytes e => bytes.overlay e.2 e.1) bytes

/-! ## Reading what is there -/

/-- The mount reports the fault as an input/output error. -/
def Fault.IsInputOutput (fault : Fault) : Prop :=
  Mount.reportedAs fault = .errno .inputOutput

theorem Fault.isInputOutput_of_kind {failure : Failure}
    (h : failure.kind = .statusQuery ∨ failure.kind = .read) :
    (Fault.known failure).IsInputOutput := by
  show Refusal.errno (Errno.ofFailure failure) = _
  unfold Errno.ofFailure
  rcases h with hkind | hkind <;> rw [hkind]

/-- The faults that may keep a mount from reading an object: the store refuses its status or its
stream, or the stream fails midway. -/
inductive ReadMayFail (backend : Backend σ) (fails : Request → Fault → Prop) (key : Key)
    (bytes : Bytes) : Prop
  | head {fault : Fault} (hfault : fails (.head key) fault)
  | range {fault : Fault} (hfault : fails (.openRange key (.int 0)) fault)
  | stream {s s' : σ} {stream : Stream}
      (hopened : backend.answer (.openRange key (.int 0)) s = (.ok stream, s'))
      (hbreaks : stream.BreaksOff bytes)

/-- A query opens no stream, so it ensures the same on a store whose streams may fail. -/
theorem Action.Ensures.breakable {α : Type} {a : Action α} {b : Bucket}
    {post : Option (Except Fault α) → Bucket → Prop}
    (h : a.Ensures (Bucket.environment fails) (fun q _ => q.isQuery) post b) :
    a.Ensures (Bucket.breakable fails) (fun q _ => q.isQuery) post b := by
  refine Program.Ensures.mono_environment h ?_ fun _ _ _ _ => trivial
  intro q b hquery outcome b' hanswer
  refine Bucket.BreakableAnswers.of_not_range hanswer fun key offset hrange => ?_
  rw [hrange] at hquery
  exact hquery

namespace Tree

/-- On an existing object, `isFile` is true, or it fails with an input/output error. -/
theorem isFile_of_contents (hf : backend.Follows view (Bucket.breakable fails)) (hloud : Loud fails)
    (h : t.Names path key) (hcontents : (view s).contents key = some bytes) :
    ∃ outcome s', (t.isFile path).perform backend s = (some outcome, s') ∧ view s' = view s ∧
      (outcome = .ok true ∨ ∃ fault, outcome = .error fault ∧ fault.IsInputOutput ∧
        ReadMayFail backend fails key bytes) := by
  have hasks : (t.isFile path).Ensures (Bucket.environment fails) (fun q _ => q.isQuery)
      (fun r b => b = view s ∧ ∃ outcome, r = some outcome ∧
        (outcome = .ok true ∨ ∃ fault, outcome = .error fault ∧ fault.IsInputOutput ∧
          ReadMayFail backend fails key bytes)) (view s) := by
    refine ensures_isFile_of_head hloud h.1 h.2 trivial ?_ ?_ ?_
    · exact fun _ => ⟨rfl, _, rfl, Or.inl rfl⟩
    · intro hnone
      rw [hcontents] at hnone
      cases hnone
    · intro failure hkind ⟨fault, hfault⟩
      exact ⟨rfl, _, rfl, Or.inr ⟨_, rfl, Fault.isInputOutput_of_kind (Or.inl hkind),
        .head hfault⟩⟩
  obtain ⟨-, hkept, outcome, houtcome, hend⟩ := hasks.breakable.run hf
  exact ⟨outcome, _, Prod.ext houtcome rfl, hkept, hend⟩

/-- A read of an existing file returns all of its bytes, or it fails with an input/output error. -/
theorem readOnce_whole (hf : backend.Follows view (Bucket.breakable fails)) (hloud : Loud fails)
    (h : t.Names path key) (hcontents : (view s).contents key = some bytes) :
    ∃ outcome s', (t.readOnce path (.int 0) (-1)).perform backend s = (some outcome, s') ∧
      view s' = view s ∧
      (outcome = .ok bytes ∨ ∃ fault, outcome = .error fault ∧ fault.IsInputOutput ∧
        ReadMayFail backend fails key bytes) := by
  have hanswer := hf.answer (.openRange key (.int 0)) s
  rcases hopened : backend.answer (.openRange key (.int 0)) s with ⟨range, s'⟩
  rw [hopened] at hanswer
  have hopen := openForRead_of_answer h (Int.le_refl 0) hopened
  obtain ⟨hkept, ⟨fault, rfl, hfault⟩ | ⟨stream, rfl, hstream | hstream⟩⟩ :=
    Bucket.BreakableAnswers.openRange hanswer hcontents
  · -- the range is refused loudly, so the file does not count as missing
    refine ⟨_, s', readOnce_of_openForRead_error hopen, hkept, Or.inr ⟨_, rfl, ?_, .range hfault⟩⟩
    rw [Fault.toFailure_isNotFound, hloud _ _ hfault, if_neg Bool.false_ne_true]
    exact Fault.isInputOutput_of_kind (Or.inr rfl)
  · obtain ⟨reader, hread, hclose⟩ := hstream.readAll_start key (.int 0)
    refine ⟨_, s', readOnce_of_openForRead hopen, hkept, Or.inl ?_⟩
    rw [hread, hclose]
  · -- what came before the fault is dropped
    obtain ⟨failure, reader, hread, hkind, hclose⟩ := hstream.readAll_start key 0
    refine ⟨_, s', readOnce_of_openForRead hopen, hkept,
      Or.inr ⟨_, ?_, Fault.isInputOutput_of_kind (Or.inr hkind), .stream hopened hstream⟩⟩
    rw [hread, hclose]

end Tree

namespace Mount

variable {m m' : Mount} {flags handle : Int} {w : Writer}

/-! ## Opening -/

/-- The ends of opening a file with content for writing: a new handle with a writer that holds all
of its bytes, or an input/output error without a new handle. -/
inductive OpensWhole (backend : Backend σ) (fails : Request → Fault → Prop) (key : Key)
    (bytes : Bytes) (m : Mount) : Except Refusal Nat → Mount → Prop
  | opened {w : Writer} (hroom : w.HasRoom key bytes) :
      OpensWhole backend fails key bytes m (.ok m.next) (m.addWriter w)
  | refused (hreason : ReadMayFail backend fails key bytes) :
      OpensWhole backend fails key bytes m (.error (.errno .inputOutput)) m

/-- Opening a file for writing without truncating it ends as `OpensWhole` says. -/
theorem openFile_whole (hf : backend.Follows view (Bucket.breakable fails)) (hloud : Loud fails)
    (hwrites : isReadOnly flags = false) (hkeeps : truncates flags = false)
    (h : t.Names path key) (hcontents : (view s).contents key = some bytes)
    (hroom : (bytes.length : Int) < Word.memoryLimit) (m : Mount) :
    ∃ outcome m' s', (openFile t path flags).perform backend m s = (some (outcome, m'), s') ∧
      view s' = view s ∧ OpensWhole backend fails key bytes m outcome m' := by
  obtain ⟨isFile, s₁, hfile, hkept₁, rfl | ⟨fault, rfl, hfault, hreason⟩⟩ :=
    Tree.isFile_of_contents hf hloud h hcontents
  swap
  · -- it is not known whether there is a file
    refine ⟨_, m, s₁, ?_, hkept₁, .refused hreason⟩
    unfold openFile
    rw [hwrites, if_neg Bool.false_ne_true, hkeeps, if_neg Bool.false_ne_true,
      MountAction.perform_bind, perform_reported hfile]
    exact congrArg (fun r => (some (Except.error r, m), s₁)) hfault
  rw [← hkept₁] at hcontents
  obtain ⟨read, s₂, hread, hkept₂, rfl | ⟨fault, rfl, hfault, hreason⟩⟩ :=
    Tree.readOnce_whole hf hloud h hcontents
  · obtain ⟨hholds, hinOrder⟩ :=
      Writer.holds_start key (Writer.start_of_room Writer.defaultSpoolSize hroom)
    exact ⟨_, _, s₂, openFile_of_readOnce hwrites hkeeps h hfile hread m, hkept₂.trans hkept₁,
      .opened ⟨hholds, hinOrder, hroom⟩⟩
  · have hopen := openFile_of_readOnce hwrites hkeeps h hfile hread m
    dsimp only at hopen
    rw [hfault] at hopen
    exact ⟨_, m, s₂, hopen, hkept₂.trans hkept₁, .refused hreason⟩

/-! ## Writing -/

/-- Writes the data through a handle, each at its offset, up to the first refusal. -/
def writeAll (handle : Int) : List (Bytes × Nat) → MountAction Unit
  | [] => pure ()
  | (data, offset) :: rest => do
      discard <| write data offset (some handle)
      writeAll handle rest

/-- The program `writeAll` performs the first write, and then the others if it succeeds. -/
theorem perform_writeAll_cons (h : m.writer? handle = some w) (data : Bytes) (offset : Nat)
    (rest : List (Bytes × Nat)) (s : σ) :
    (writeAll handle ((data, offset) :: rest)).perform backend m s =
      match (w.writeAt data offset).1 with
      | .ok _ => (writeAll handle rest).perform backend
          (m.setWriter handle (w.writeAt data offset).2) s
      | .error misuse =>
          (some (.error (refusal misuse), m.setWriter handle (w.writeAt data offset).2), s) := by
  show MountAction.perform backend (discard (write data offset (some handle)) >>= _) m s = _
  have hwrite : (write data offset (some handle)).perform backend m s = _ :=
    perform_write h data offset
  have hdiscard : MountAction.perform backend (discard (write data offset (some handle))) m s =
      (some (((w.writeAt data offset).1.map fun _ => ()).mapError refusal,
        m.setWriter handle (w.writeAt data offset).2), s) := by
    show MountAction.perform backend (write data offset (some handle) >>= fun _ => pure ()) m s = _
    rw [MountAction.perform_bind, hwrite]
    cases (w.writeAt data offset).1 <;> rfl
  rw [MountAction.perform_bind, hdiscard]
  cases (w.writeAt data offset).1 <;> rfl

/-- A replaced writer is found under its handle. -/
theorem writer?_setWriter_self (h : m.writer? handle = some w) (w' : Writer) :
    (m.setWriter handle w').writer? handle = some w' := by
  rw [writer?_setWriter, if_pos rfl, h]
  rfl

/-- If no write is refused, the writer holds the bytes with the data of all writes laid over
them. -/
theorem holds_of_writeAll (writes : List (Bytes × Nat)) (h : m.writer? handle = some w)
    (hholds : w.Holds key bytes) (hinOrder : w.spool.InOrder)
    (hperform : (writeAll handle writes).perform backend m s = (some (.ok (), m'), s')) :
    s' = s ∧ ∃ w', m'.writer? handle = some w' ∧ w'.Holds key (bytes.overlayAll writes) ∧
      w'.spool.InOrder := by
  induction writes generalizing m w bytes with
  | nil =>
      cases hperform
      exact ⟨rfl, w, h, hholds, hinOrder⟩
  | cons e rest ih =>
      obtain ⟨data, offset⟩ := e
      rw [perform_writeAll_cons h] at hperform
      rcases hwrite : w.writeAt data offset with ⟨_ | count, w'⟩
      · rw [hwrite] at hperform
        cases hperform
      · rw [hwrite] at hperform
        obtain ⟨-, hholds', hinOrder'⟩ := hholds.writeAt hwrite
        exact ih (writer?_setWriter_self h w') hholds' hinOrder' hperform

/-- No write is refused if all data end below the memory limit. -/
theorem exists_writeAll (writes : List (Bytes × Nat)) (h : m.writer? handle = some w)
    (hroom : w.HasRoom key bytes)
    (hwrites : ∀ e ∈ writes, (e.2 + e.1.length : Int) < Word.memoryLimit) (s : σ) :
    ∃ m', (writeAll handle writes).perform backend m s = (some (.ok (), m'), s) := by
  induction writes generalizing m w bytes with
  | nil => exact ⟨m, rfl⟩
  | cons e rest ih =>
      obtain ⟨data, offset⟩ := e
      obtain ⟨w', hwrite, hroom'⟩ := hroom.writeAt (hwrites _ List.mem_cons_self)
      rw [perform_writeAll_cons h, hwrite]
      exact ih (writer?_setWriter_self h w') hroom' fun e he =>
        hwrites e (List.mem_cons_of_mem _ he)

/-- Opening an existing file for writing without truncating it gives a writer that holds all of its
bytes, or an input/output error with nothing changed. After any writes through the handle, the
release stores the bytes with the data laid over them in order and changes no other key, or it fails
and changes nothing. -/
theorem edit_complete (hf : backend.Follows view (Bucket.breakable fails)) (hloud : Loud fails)
    (hwrites : isReadOnly flags = false) (hkeeps : truncates flags = false)
    (h : t.Names path key) (hcontents : (view s).contents key = some bytes)
    (hroom : (bytes.length : Int) < Word.memoryLimit) (m : Mount) :
    ∃ outcome m₁ s₁, (openFile t path flags).perform backend m s = (some (outcome, m₁), s₁) ∧
      view s₁ = view s ∧ OpensWhole backend fails key bytes m outcome m₁ ∧
      ∀ opened, outcome = .ok opened → ∀ writes : List (Bytes × Nat),
        ((∀ e ∈ writes, (e.2 + e.1.length : Int) < Word.memoryLimit) →
          ∃ m₂, (writeAll opened writes).perform backend m₁ s₁ = (some (.ok (), m₂), s₁)) ∧
        ∀ m₂ s₂, (writeAll opened writes).perform backend m₁ s₁ = (some (.ok (), m₂), s₂) →
          ∃ released s₃, (release (some opened)).perform backend m₂ s₂ =
              (some (released, m₂.dropHandle opened), s₃) ∧
            Replaces view key (bytes.overlayAll writes) s released s₃ := by
  obtain ⟨outcome, m₁, s₁, hopen, hkept, hopens⟩ :=
    openFile_whole hf hloud hwrites hkeeps h hcontents hroom m
  refine ⟨outcome, m₁, s₁, hopen, hkept, hopens, ?_⟩
  intro opened hopened writes
  cases hopens with
  | refused => cases hopened
  | @opened w hheld =>
      cases hopened
      have hwriter : (m.addWriter w).writer? m.next = some w := by
        rw [writer?_addWriter, if_pos rfl]
      refine ⟨fun hfit => exists_writeAll writes hwriter hheld hfit s₁, ?_⟩
      intro m₂ s₂ hwritten
      obtain ⟨rfl, w', hwriter', hholds, hinOrder⟩ :=
        holds_of_writeAll writes hwriter hheld.holds hheld.inOrder hwritten
      -- each accepted write left the buffer in good order, so its size is told and it is uploaded
      obtain ⟨released, w'', s₃, hclose, -, huploads⟩ :=
        hholds.close_of_stores hf.stores_of_breakable (hholds.size_of_inOrder hinOrder) s₂
      exact ⟨_, s₃, perform_release hwriter' hclose, huploads.replaces.of_view_eq hkept⟩

/-- A file of six bytes, streamed one by one, is edited in the middle and beyond its end. It is not
opened when the stream fails after three bytes. -/
theorem edit_complete_cut :
    (∃ m₁ m₂ released memory memory', (openFile Tree.keyByKey "/f" 1).perform
        (Memory.byteByByte "b") fresh sixBytes = (some (.ok 1, m₁), memory) ∧
      (writeAll 1 [([9], 1), ([7], 8)]).perform (Memory.byteByByte "b") m₁ memory =
        (some (.ok (), m₂), memory) ∧
      (release (some 1)).perform (Memory.byteByByte "b") m₂ memory =
        (some (released, m₂.dropHandle 1), memory') ∧
      Replaces (Memory.bucket "b") "f" [1, 9, 3, 4, 5, 6, 0, 0, 7] sixBytes released memory') ∧
    ∃ memory, (openFile Tree.keyByKey "/f" 1).perform (Memory.failingAt 3 "b") fresh sixBytes =
        (some (.error (.errno .inputOutput), fresh), memory) ∧
      memory.bucket "b" = sixBytes.bucket "b" := by
  have hnames : Tree.keyByKey.Names "/f" "f" := ⟨rfl, by decide⟩
  have hcontents : (sixBytes.bucket "b").contents "f" = some [1, 2, 3, 4, 5, 6] := rfl
  have hwrites : isReadOnly 1 = false := rfl
  have hkeeps : truncates 1 = false := rfl
  refine ⟨?_, ?_⟩
  · obtain ⟨outcome, m₁, memory, hopen, -, -, hedits⟩ :=
      edit_complete (Memory.byteByByte_follows "b").breakable Memory.loud_refuses hwrites hkeeps
        hnames hcontents (by decide) fresh
    obtain rfl : outcome = .ok 1 :=
      Option.some.inj ((congrArg (fun r => r.1.map (·.1)) hopen).symm.trans rfl)
    obtain ⟨haccepted, hreleases⟩ := hedits 1 rfl [([9], 1), ([7], 8)]
    obtain ⟨m₂, hwritten⟩ := haccepted (by decide)
    obtain ⟨released, memory', hrelease, hreplaces⟩ := hreleases m₂ memory hwritten
    exact ⟨m₁, m₂, released, memory, memory', hopen, hwritten, hrelease, hreplaces⟩
  · obtain ⟨outcome, m₁, memory, hopen, hkept, hopens, -⟩ :=
      edit_complete (Memory.failingAt_follows 3 "b") Memory.loud_refuses hwrites hkeeps
        hnames hcontents (by decide) fresh
    have hrefused : Option.map (·.1) ((openFile Tree.keyByKey "/f" 1).perform
        (Memory.failingAt 3 "b") fresh sixBytes).1 = some (.error (.errno .inputOutput)) := rfl
    rw [hopen] at hrefused
    cases hopens with
    | opened => cases hrefused
    | refused => exact ⟨memory, hopen, hkept⟩

end Mount

end BucketTree
