import BucketTree.Proofs.Mount.Runs
import BucketTree.Proofs.Program.Candid
import BucketTree.Proofs.Store.Schedule

/-!
# Closing a mount

When a mount is closed, its open writers are closed one after another, the oldest first. Each of
them uploads its buffer and is closed, whether the upload succeeds or not (`Closings`), so the
content of a key is that of the last successful upload to it. This ends at a buffer that does not
tell its size (`Stops`): closing it is a misuse, which ends the whole operation, and the writers
after it are not closed.
-/

set_option autoImplicit false

namespace BucketTree

variable {σ : Type} {backend : Backend σ} {view : σ → Bucket} {fails : Request → Fault → Prop}
variable {s s' : σ} {m : Mount}

/-- The schedule under which uploads to `key` are refused. -/
def Schedule.locking (key : Key) : Schedule where
  raised
    | .put target _ :: _ =>
        if target = key then some (.remote (some .permissionDenied) "locked") else none
    | _ => none
  isCancelled _ _ := false

/-! ## One writer -/

namespace Spool

/-- A buffer that tells its size is not stuck. -/
theorem not_isStuck_of_measure {spool : Spool} {count : Nat} (h : spool.measure = .ok count) :
    spool.isStuck = false := by
  cases hstuck : spool.isStuck with
  | false => rfl
  | true =>
      unfold measure seekEnd tell at h
      rw [hstuck] at h
      cases hopen : spool.isOpen <;> rw [hopen] at h <;> cases h

/-- Closing a buffer that does not tell its size succeeds, or it raises the same misuse as asking
for the size. -/
theorem close_of_measure {spool : Spool} {misuse : Misuse} (h : spool.measure = .error misuse) :
    spool.close.1 = .ok () ∨ spool.close.1 = .error misuse := by
  unfold measure seekEnd tell at h
  unfold close
  cases hopen : spool.isOpen with
  | false => exact Or.inl rfl
  | true =>
      cases hstuck : spool.isStuck with
      | false => exact Or.inl rfl
      | true =>
          rw [hopen, hstuck] at h
          cases h
          exact Or.inr rfl

theorem isStuck_stored (spool : Spool) (block : Option BlockNumber) :
    (spool.stored block).isStuck = spool.isStuck := by
  unfold stored
  split
  next room shared number hplace =>
      split
      · unfold isStuck
        rw [hplace]
      · rfl
  · rfl

end Spool

namespace Writer

variable {w : Writer} {count : Nat}

/-- An upload carries the content of the buffer. -/
theorem carries_content (w : Writer) : w.uploaded.Carries w.content := by
  refine ⟨rfl, rfl, ?_⟩
  show Value.int w.spool.content.length = _
  rw [← Sparse.length_bytes]
  rfl

/-- A writer whose buffer tells its size stores its content, or it fails and changes nothing. -/
theorem upload_of_stores (hf : backend.Stores view fails) (hsize : w.size = .ok count) (s : σ) :
    ∃ outcome w' s', w.upload.run backend s = (some (outcome, w'), s') ∧
      w'.spool.isStuck = false ∧ Uploads backend view w.key w.content s outcome s' := by
  have hstuck : w.spool.isStuck = false := Spool.not_isStuck_of_measure hsize
  have hcarries := w.carries_content
  have hanswer := hf w.key w.uploaded s
  rcases hput : backend.answer (.put w.key w.uploaded) s with ⟨fault | block, s'⟩
  · rw [hput] at hanswer
    exact ⟨_, _, s', upload_of_error hsize hput, hstuck,
      .failed hcarries hput (congrArg Bucket.contents hanswer.put_error)⟩
  · rw [hput] at hanswer
    exact ⟨_, _, s', upload_of_ok hsize hput, (Spool.isStuck_stored _ block).trans hstuck,
      .stored hcarries hput (hanswer.put_ok hcarries.received_eq)⟩

/-- An upload sends one request. -/
theorem exchanges_upload (hsize : w.size = .ok count) (s : σ) :
    (w.upload.exchanges backend s).map (·.request) = [.put w.key w.uploaded] := by
  unfold upload
  rw [hsize]
  show .put w.key w.uploaded :: (Program.exchanges backend _ _).map (·.request) = _
  cases (backend.answer (.put w.key w.uploaded) s).1 <;> rfl

/-- Closing an open writer sends the request of its upload only. -/
theorem exchanges_close (hopen : w.isClosed = false) (hsize : w.size = .ok count) (s : σ) :
    (w.close.exchanges backend s).map (·.request) = [.put w.key w.uploaded] := by
  unfold close
  rw [hopen, if_neg Bool.false_ne_true, Program.exchanges_bind, List.map_append,
    exchanges_upload hsize]
  -- letting go of the buffer asks nothing
  rcases w.upload.run backend s with ⟨_ | ⟨outcome, w₁⟩, s₁⟩
  · rfl
  · dsimp only
    rcases w₁.finish with ⟨_ | _, w₂⟩ <;> rfl

/-- Closing a writer whose buffer does not tell its size is a misuse, and sends nothing. -/
theorem close_of_size {misuse : Misuse} (hopen : w.isClosed = false)
    (hsize : w.size = .error misuse) : ∃ w', w.close = pure (.error (.misuse misuse), w') := by
  unfold close upload
  rw [hopen, if_neg Bool.false_ne_true, hsize]
  dsimp only
  rw [pure_bind]
  unfold finish
  rcases hclose : w.spool.close with ⟨reported, spool⟩
  have hreported := Spool.close_of_measure hsize
  rw [hclose] at hreported
  rcases hreported with rfl | rfl <;> exact ⟨_, rfl⟩

end Writer

namespace Mount

/-! ## All writers -/

/-- Writers closed in order, each with one upload that succeeds or fails. Those in `saved` have
stored their content. -/
inductive Closings (backend : Backend σ) (view : σ → Bucket) :
    List (Int × Writer) → σ → List (Int × Writer) → σ → Prop
  | none {s : σ} : Closings backend view [] s [] s
  | stored {handle : Int} {w w' : Writer} {writers saved : List (Int × Writer)} {s s₁ s' : σ}
      (hclose : w.close.run backend s = (some (.ok (), w'), s₁)) (hclosed : w'.isClosed = true)
      (huploads : Writer.Uploads backend view w.key w.content s (.ok ()) s₁)
      (hrest : Closings backend view writers s₁ saved s') :
      Closings backend view ((handle, w) :: writers) s ((handle, w) :: saved) s'
  | failed {handle : Int} {w w' : Writer} {fault : Fault} {writers saved : List (Int × Writer)}
      {s s₁ s' : σ} (hclose : w.close.run backend s = (some (.error fault, w'), s₁))
      (hclosed : w'.isClosed = true)
      (huploads : Writer.Uploads backend view w.key w.content s (.error fault) s₁)
      (hrest : Closings backend view writers s₁ saved s') :
      Closings backend view ((handle, w) :: writers) s saved s'

/-- The outcome of closing writers, by the writers that are not closed: none, or those from the
first one on whose buffer does not tell its size. -/
inductive Stops : List (Int × Writer) → Except Refusal Unit → Prop
  | finished : Stops [] (.ok ())
  | untold {e : Int × Writer} {writers : List (Int × Writer)} {misuse : Misuse}
      (hsize : e.2.size = .error misuse) : Stops (e :: writers) (.error (.fault (.misuse misuse)))

namespace Closings

variable {writers saved : List (Int × Writer)}

/-- The writers that stored their content are among those closed. -/
theorem sublist (h : Closings backend view writers s saved s') : saved.Sublist writers := by
  induction h with
  | none => exact List.Sublist.slnil
  | stored _ _ _ _ ih => exact ih.cons_cons _
  | failed _ _ _ _ ih => exact ih.cons _

/-- The content of a key is that of the last successful upload to it, or the content before. -/
theorem contents_eq (h : Closings backend view writers s saved s') (key : Key) :
    (view s').contents key =
      (Ledger.latest key (saved.map fun e => (e.2.key, e.2.content))).or
        ((view s).contents key) := by
  induction h with
  | none => rfl
  | @stored handle w w' writers saved s s₁ s' _ _ huploads _ ih =>
      cases huploads with
      | stored _ _ hstored =>
          show _ = (Ledger.latest key ([(w.key, w.content)] ++ saved.map _)).or _
          rw [ih, hstored, Ledger.update_eq_latest, Ledger.latest_append, Option.or_assoc]
  | failed _ _ huploads _ ih =>
      cases huploads with
      | failed _ _ hkept => rw [ih, hkept]

end Closings

/-- The program `closeAll` closes the first writer, and then the others or ends with a misuse. -/
theorem run_closeAll_cons (e : Int × Writer) (writers : List (Int × Writer)) (m : Mount) :
    (closeAll (e :: writers)).run.run m =
      e.2.close >>= fun r =>
        match r.1 with
        | .ok () => (closeAll writers).run.run m
        | .error fault =>
            if fault.isFailure then (closeAll writers).run.run m
            else pure (.error (.fault fault), m) := by
  obtain ⟨handle, w⟩ := e
  show ((w.close >>= fun r => pure (r, m)) >>= fun r => pure (Except.ok r.1, r.2)) >>= _ = _
  rw [bind_assoc, bind_assoc]
  refine congrArg (w.close >>= ·) (funext fun r => ?_)
  rw [pure_bind, pure_bind]
  rcases r with ⟨fault | _, w'⟩
  · show (if fault.isFailure then closeAll writers else throw (.fault fault)).run.run m =
      if fault.isFailure then (closeAll writers).run.run m else pure (.error (.fault fault), m)
    cases fault.isFailure <;> rfl
  · rfl

theorem closeAll_ends (hf : backend.Stores view fails) (m : Mount)
    (writers : List (Int × Writer)) (hopen : ∀ e ∈ writers, e.2.isClosed = false) :
    ∀ s, ∃ outcome s' told untold saved,
      ((closeAll writers).run.run m).run backend s = (some (outcome, m), s') ∧
      writers = told ++ untold ∧ Stops untold outcome ∧
      (∀ e ∈ told, ∃ count, e.2.size = .ok count) ∧
      (((closeAll writers).run.run m).exchanges backend s).map (·.request) =
        told.map (fun e => .put e.2.key e.2.uploaded) ∧
      Closings backend view told s saved s' := by
  induction writers with
  | nil =>
      intro s
      exact ⟨_, s, [], [], [], rfl, rfl, .finished, fun _ he => absurd he List.not_mem_nil, rfl,
        .none⟩
  | cons e rest ih =>
      intro s
      obtain ⟨hfirst, hrest⟩ := List.forall_mem_cons.1 hopen
      rw [run_closeAll_cons, Program.run_bind, Program.exchanges_bind]
      cases hsize : e.2.size with
      | error misuse =>
          -- the misuse is no failure of the store, so it is not passed over
          obtain ⟨w', hclose⟩ := Writer.close_of_size hfirst hsize
          rw [hclose]
          exact ⟨_, s, [], e :: rest, [], rfl, rfl, .untold hsize,
            fun _ he => absurd he List.not_mem_nil, rfl, .none⟩
      | ok count =>
          -- one upload; the loop goes on whether it succeeds or not
          obtain ⟨outcome, w₁, s₁, hupload, hstuck, huploads⟩ :=
            Writer.upload_of_stores hf hsize s
          obtain ⟨w', hclose, hclosed⟩ := Writer.close_of_upload hfirst hupload hstuck
          obtain ⟨outcome', s', told, untold, saved, hrun, hsplit, hstops, htold, hsent,
            hclosings⟩ := ih hrest s₁
          have htells : ∀ x ∈ e :: told, ∃ count, x.2.size = .ok count :=
            List.forall_mem_cons.2 ⟨⟨count, hsize⟩, htold⟩
          have hsplit' : e :: rest = (e :: told) ++ untold := congrArg (e :: ·) hsplit
          rw [List.map_append, Writer.exchanges_close hfirst hsize, hclose]
          cases huploads with
          | stored hcarries hput hstored =>
              exact ⟨outcome', s', e :: told, untold, e :: saved, hrun, hsplit', hstops, htells,
                congrArg (_ :: ·) hsent,
                .stored hclose hclosed (.stored hcarries hput hstored) hclosings⟩
          | failed hcarries hput hkept =>
              exact ⟨outcome', s', e :: told, untold, saved, hrun, hsplit', hstops, htells,
                congrArg (_ :: ·) hsent,
                .failed hclose hclosed (.failed hcarries hput hkept) hclosings⟩

/-- Closing a mount leaves an empty table in any case. The open writers are closed in the order of
their handles, each with one request that carries its buffer, up to the first buffer that does not
tell its size. A failed upload changes nothing, and the content of a key is that of the last
successful upload to it, or the content before. All writers are closed in this way and no fault is
raised exactly when every buffer tells its size. -/
theorem destroy_uploads_iff (hf : backend.Stores view fails)
    (hopen : ∀ e ∈ m.writers, e.2.isClosed = false) (s : σ) :
    ∃ outcome s' told untold saved,
      destroy.perform backend m s = (some (outcome, m.dropAll), s') ∧
      m.writers = told ++ untold ∧ Stops untold outcome ∧
      ((destroy.run.run m).exchanges backend s).map (·.request) =
        told.map (fun e => .put e.2.key e.2.uploaded) ∧
      (∀ e ∈ told, e.2.uploaded.Carries e.2.content) ∧
      Closings backend view told s saved s' ∧ saved.Sublist told ∧
      (∀ key, (view s').contents key =
        (Ledger.latest key (saved.map fun e => (e.2.key, e.2.content))).or
          ((view s).contents key)) ∧
      (outcome = .ok () ↔ ∀ e ∈ m.writers, ∃ count, e.2.size = .ok count) := by
  -- the table is emptied before its writers are closed
  obtain ⟨outcome, s', told, untold, saved, hrun, hsplit, hstops, htold, hsent, hclosings⟩ :=
    closeAll_ends hf m.dropAll m.writers hopen s
  refine ⟨outcome, s', told, untold, saved, hrun, hsplit, hstops, hsent,
    fun e _ => e.2.carries_content, hclosings, hclosings.sublist, hclosings.contents_eq, ?_⟩
  constructor
  · rintro rfl
    cases hstops
    rw [hsplit, List.append_nil]
    exact htold
  · intro htells
    cases hstops with
    | finished => rfl
    | @untold e rest misuse hsize =>
        obtain ⟨count, hcount⟩ :=
          htells e (hsplit ▸ List.mem_append_right told List.mem_cons_self)
        rw [hsize] at hcount
        cases hcount

/-- Three open writers, two of them at one key. -/
def threeWriters : Mount :=
  ((fresh.addWriter (.start "a" [1] Writer.defaultSpoolSize)).addWriter
    (.start "c" [2] Writer.defaultSpoolSize)).addWriter
      (.start "a" [3] Writer.defaultSpoolSize)

/-- One of three uploads is refused. The other two succeed, and the later of the two writers at one
key determines its content. -/
theorem destroy_uploads_iff_locked :
    (∀ e ∈ threeWriters.writers, e.2.isClosed = false) ∧
      ∃ s', destroy.perform ((Schedule.locking "c").backend "b") threeWriters
          ⟨.empty ⟨0, 1⟩, []⟩ = (some (.ok (), threeWriters.dropAll), s') ∧
        (s'.memory.bucket "b").contents "a" = some [3] ∧
        (s'.memory.bucket "b").contents "c" = none := by
  have hopen : ∀ e ∈ threeWriters.writers, e.2.isClosed = false := by decide
  have htells : ∀ e ∈ threeWriters.writers, ∃ count, e.2.size = .ok count := by
    intro e he
    rcases List.mem_cons.1 he with rfl | he
    · exact ⟨1, rfl⟩
    rcases List.mem_cons.1 he with rfl | he
    · exact ⟨1, rfl⟩
    · rw [List.mem_singleton.1 he]
      exact ⟨1, rfl⟩
  obtain ⟨outcome, s', told, untold, saved, hrun, -, -, -, -, -, -, -, hends⟩ :=
    destroy_uploads_iff ((Schedule.locking "c").backend_follows_any "b").stores hopen
      ⟨.empty ⟨0, 1⟩, []⟩
  obtain rfl := hends.2 htells
  have hs' : s' = (destroy.perform ((Schedule.locking "c").backend "b") threeWriters
      ⟨.empty ⟨0, 1⟩, []⟩).2 := by rw [hrun]
  refine ⟨hopen, s', hrun, ?_, ?_⟩
  · rw [hs']
    rfl
  · rw [hs']
    rfl

/-- A write far beyond the end makes the buffer of the first file fail. Closing the mount ends with
the misuse of that buffer, and the second file is not uploaded. -/
theorem destroy_loses_file :
    ∃ events m memory, serveAll Tree.keyByKey
        [.create "/a" (.int 0), .write [97, 98, 99] 0 1, .write [120] 4503599627370496 1,
          .create "/c" (.int 0), .write [99, 100] 0 2] fresh (.empty ⟨0, 1⟩) =
        (some (events, m), memory) ∧
      (destroy.perform (Memory.backend "b") m memory).1.map Prod.fst =
        some (.error (.fault (.misuse .closedStream))) ∧
      ((destroy.perform (Memory.backend "b") m memory).2.bucket "b").contents "c" = none ∧
      (m.writer? 2).map (·.content) = some [99, 100] :=
  ⟨_, _, _, rfl, rfl, rfl, rfl⟩

end Mount

end BucketTree
