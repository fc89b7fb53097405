import BucketTree.Mount.Operations
import BucketTree.Proofs.Content.Upload

/-!
# Operations on handles

An operation on a handle applies the operation of the writer under the handle and puts the changed
writer back into the table. Without a writer under the handle, a write is refused, and a sync or
release does nothing.
-/

set_option autoImplicit false

namespace BucketTree

variable {σ α β : Type} {backend : Backend σ} {m m' : Mount} {s s' : σ}

/-- Performs an operation of a mount on a backend. -/
def MountAction.perform (backend : Backend σ) (a : MountAction α) (m : Mount) (s : σ) :
    Option (Except Refusal α × Mount) × σ :=
  (a.run.run m).run backend s

namespace MountAction

/-- Rule for `>>=`: a refusal of the first operation ends the whole. -/
theorem perform_bind (a : MountAction α) (f : α → MountAction β) (m : Mount) (s : σ) :
    MountAction.perform backend (a >>= f) m s =
      match a.perform backend m s with
      | (some (.ok x, m), s) => (f x).perform backend m s
      | (some (.error refusal, m), s) => (some (.error refusal, m), s)
      | (none, s) => (none, s) := by
  show ((ExceptT.run a >>= ExceptT.bindCont f).run m).run backend s = _
  rw [StateT.run_bind, Program.run_bind]
  unfold perform
  rcases ((ExceptT.run a).run m).run backend s with ⟨_ | ⟨_ | _, _⟩, _⟩ <;> rfl

/-- Rule for `lift p >>= f`. -/
theorem run_lift_bind (p : Program α) (f : α → MountAction β) (m : Mount) :
    ((Mount.lift p : MountAction α) >>= f).run.run m = p >>= fun x => (f x).run.run m := by
  show ((p >>= fun x => pure (x, m)) >>= fun r => pure (Except.ok r.1, r.2)) >>= _ = _
  rw [bind_assoc, bind_assoc]
  rfl

/-- Rule for `discard` of an operation that is refused. -/
theorem perform_discard_of_error {a : MountAction α} {r : Refusal}
    (h : a.perform backend m s = (some (.error r, m'), s')) :
    MountAction.perform backend (discard a) m s = (some (.error r, m'), s') := by
  show MountAction.perform backend (a >>= fun _ => pure ()) m s = _
  rw [perform_bind, h]

/-- Rule for `get >>= f`. -/
theorem perform_get_bind (f : Mount → MountAction β) (m : Mount) (s : σ) :
    MountAction.perform backend (get >>= f) m s = (f m).perform backend m s := rfl

/-- Rule for `modify g >>= f`. -/
theorem perform_modify_bind (g : Mount → Mount) (f : PUnit → MountAction β) (m : Mount) (s : σ) :
    MountAction.perform backend (modify g >>= f) m s = (f ⟨⟩).perform backend (g m) s := rfl

/-- An operation that sends no request. -/
theorem perform_of_run {a : MountAction α} {r : Except Refusal α} (h : a.run.run m = pure (r, m'))
    (s : σ) : a.perform backend m s = (some (r, m'), s) := by
  unfold perform
  rw [h]
  rfl

theorem perform_lift {p : Program α} {x : α} (h : p.run backend s = (some x, s')) :
    (Mount.lift p).perform backend m s = (some (.ok x, m), s') := by
  show ((p >>= fun a => pure (a, m)) >>= fun r => pure (Except.ok r.1, r.2)).run backend s = _
  rw [Program.run_bind, Program.run_bind, h]
  rfl

end MountAction

namespace Mount

variable {handle : Int} {w : Writer}

/-- The refusal for a misuse, which is passed on. -/
def refusal (misuse : Misuse) : Refusal := .fault (.misuse misuse)

/-- The refusal for a fault: an error number for a known failure, and the fault itself otherwise. -/
def reportedAs (fault : Fault) : Refusal :=
  if fault.isFailure then .errno (.ofFault fault) else .fault fault

theorem perform_passed (r : Except Misuse α) (m : Mount) (s : σ) :
    (passed r).perform backend m s = (some (r.mapError refusal, m), s) := by
  cases r with
  | ok x => rfl
  | error misuse => rfl

theorem perform_reported {a : Action α} {r : Except Fault α}
    (h : a.perform backend s = (some r, s')) :
    (reported a).perform backend m s = (some (r.mapError reportedAs, m), s') := by
  unfold reported
  rw [MountAction.perform_bind, MountAction.perform_lift h]
  cases r with
  | ok x => rfl
  | error fault =>
      show MountAction.perform backend
        (if fault.isFailure then refuse (.ofFault fault) else throw (.fault fault)) m s' =
          (some (.error (reportedAs fault), m), s')
      unfold reportedAs
      cases fault.isFailure <;> rfl

theorem perform_reported_discard {a : Action α} {r : Except Fault α}
    (h : a.perform backend s = (some r, s')) :
    (reported (discard a)).perform backend m s =
      (some ((r.map fun _ => ()).mapError reportedAs, m), s') := by
  refine perform_reported ?_
  show Action.perform backend (a >>= fun _ => pure ()) s = _
  rw [Action.run_bind, h]
  cases r <;> rfl

theorem perform_register (w : Writer) (m : Mount) (s : σ) :
    (register w).perform backend m s = (some (.ok m.next, m.addWriter w), s) := rfl

/-! ## The writer that an operation goes to -/

/-- Earlier entries of the table have other handles. -/
theorem fst_ne_of_before {e e' : Int × Writer} {before after : List (Int × Writer)}
    (hwriters : m.writers = before ++ e :: after) (he' : e' ∈ before) : e'.1 ≠ e.1 := by
  have hincreasing := m.increasing
  rw [hwriters] at hincreasing
  exact Int.ne_of_lt ((List.pairwise_append.1 hincreasing).2.2 e' he' e List.mem_cons_self)

/-- The writer of an entry is the one found under its handle. -/
theorem writer?_of_mem (h : (handle, w) ∈ m.writers) : m.writer? handle = some w := by
  obtain ⟨before, after, hwriters⟩ := List.append_of_mem h
  have hfind : m.writers.find? (fun e => e.1 == handle) = some (handle, w) := by
    refine List.find?_eq_some_iff_append.2 ⟨beq_self_eq_true handle, before, after, hwriters, ?_⟩
    intro e he
    simpa using fst_ne_of_before hwriters he
  unfold writer? findWriter
  rw [hfind]
  rfl

theorem writer?_of_writerFor? {key : Key} (h : m.writerFor? key = some (handle, w)) :
    m.writer? handle = some w :=
  writer?_of_mem (List.mem_of_find?_eq_some h)

/-- Replacing the oldest writer for a key by another writer for the key keeps its place. -/
theorem writerFor?_setWriter {key : Key} {w' : Writer} (h : m.writerFor? key = some (handle, w))
    (hkey : w'.key = w.key) : (m.setWriter handle w').writerFor? key = some (handle, w') := by
  obtain ⟨hfound, before, after, hwriters, hbefore⟩ := List.find?_eq_some_iff_append.1 h
  have hkept : ∀ e ∈ before, renewEntry handle w' e = e := fun e he =>
    if_neg (fst_ne_of_before hwriters he)
  have hmap : (m.setWriter handle w').writers =
      before ++ (handle, w') :: after.map (renewEntry handle w') := by
    have hrenewed : renewEntry handle w' (handle, w) = (handle, w') := if_pos rfl
    show m.writers.map (renewEntry handle w') = _
    rw [hwriters, List.map_append, List.map_cons, hrenewed, List.map_congr_left hkept, List.map_id']
  refine List.find?_eq_some_iff_append.2 ⟨?_, before, _, hmap, hbefore⟩
  rw [← hfound]
  exact congrArg (· == key) hkey

/-- The operation is about the writer `w`: the one under the given handle or, without a handle, the
oldest one at the key of the path. Zero is no handle. -/
inductive Leads (m : Mount) (path : Value) : Option Int → Int → Writer → Prop
  | byHandle {handle : Int} {w : Writer} (hhandle : handle ≠ 0) (hw : m.writer? handle = some w) :
      Leads m path (some handle) handle w
  | byPath {given : Option Int} {key : Key} {handle : Int} {w : Writer}
      (hgiven : ∀ h ∈ given, h = 0) (hkey : Path.toKey path "" = .ok key)
      (hw : m.writerFor? key = some (handle, w)) : Leads m path given handle w

namespace Leads

variable {path : Value} {given : Option Int}

theorem writer?_eq (h : m.Leads path given handle w) : m.writer? handle = some w := by
  cases h with
  | byHandle hhandle hw => exact hw
  | byPath hgiven hkey hw => exact writer?_of_writerFor? hw

theorem setWriter {w' : Writer} (h : m.Leads path given handle w) (hkey : w'.key = w.key) :
    (m.setWriter handle w').Leads path given handle w' := by
  cases h with
  | byHandle hhandle hw =>
      refine .byHandle hhandle ?_
      rw [writer?_setWriter, if_pos rfl, hw]
      rfl
  | byPath hgiven hpath hw => exact .byPath hgiven hpath (writerFor?_setWriter hw hkey)

end Leads

/-- The operation is about no writer, neither by its handle nor by its path. -/
inductive LeadsNowhere (m : Mount) (path : Value) : Option Int → Prop
  | byHandle {handle : Int} (hhandle : handle ≠ 0) (hnone : m.writer? handle = none) :
      LeadsNowhere m path (some handle)
  | byPath {given : Option Int} {key : Key} (hgiven : ∀ h ∈ given, h = 0)
      (hkey : Path.toKey path "" = .ok key) (hnone : m.writerFor? key = none) :
      LeadsNowhere m path given

section Addressed

variable {path : Value} {given : Option Int}

/-- A handle other than zero is looked up in the table. -/
theorem addressed_of_handle (hhandle : handle ≠ 0) (m : Mount) :
    (addressed path (some handle)).run.run m =
      pure (.ok ((m.writer? handle).map (handle, ·)), m) := by
  unfold addressed
  simp only [bne_iff_ne.2 hhandle, if_true]
  rfl

/-- Without a handle, the writer is looked up by the key of the path. -/
theorem addressed_of_path (hgiven : ∀ h ∈ given, h = 0) (m : Mount) :
    (addressed path given).run.run m =
      pure (match Path.toKey path "" with
        | .ok key => .ok (m.writerFor? key)
        | .error refusal => .error (.fault (.known (.ofRefusal refusal))), m) := by
  have hbyPath : (addressed path none).run.run m =
      pure (match Path.toKey path "" with
        | .ok key => .ok (m.writerFor? key)
        | .error refusal => .error (.fault (.known (.ofRefusal refusal))), m) := by
    unfold addressed
    cases Path.toKey path "" <;> rfl
  cases given with
  | none => exact hbyPath
  | some h =>
      obtain rfl := hgiven h rfl
      exact hbyPath

theorem addressed_of_leads (h : m.Leads path given handle w) :
    (addressed path given).run.run m = pure (.ok (some (handle, w)), m) := by
  cases h with
  | byHandle hhandle hw => rw [addressed_of_handle hhandle, hw]; rfl
  | byPath hgiven hkey hw => rw [addressed_of_path hgiven, hkey, ← hw]

theorem addressed_of_leadsNowhere (h : m.LeadsNowhere path given) :
    (addressed path given).run.run m = pure (.ok none, m) := by
  cases h with
  | byHandle hhandle hnone => rw [addressed_of_handle hhandle, hnone]; rfl
  | byPath hgiven hkey hnone => rw [addressed_of_path hgiven, hkey, ← hnone]

theorem addressed_of_refused (hgiven : ∀ h ∈ given, h = 0) {refusal : PathRefusal}
    (hkey : Path.toKey path "" = .error refusal) (m : Mount) :
    (addressed path given).run.run m =
      pure (.error (.fault (.known (.ofRefusal refusal))), m) := by
  rw [addressed_of_path hgiven, hkey]

/-- An operation is about a writer, or about none, or its path is refused. -/
theorem leads_or_refused (m : Mount) (path : Value) (given : Option Int) :
    (∃ handle w, m.Leads path given handle w) ∨ m.LeadsNowhere path given ∨
      ((∀ h ∈ given, h = 0) ∧ ∃ refusal, Path.toKey path "" = .error refusal) := by
  by_cases hgiven : ∀ h ∈ given, h = 0
  · cases hkey : Path.toKey path "" with
    | error refusal => exact Or.inr (Or.inr ⟨hgiven, refusal, rfl⟩)
    | ok key =>
        cases hw : m.writerFor? key with
        | none => exact Or.inr (Or.inl (.byPath hgiven hkey hw))
        | some e => exact Or.inl ⟨e.1, e.2, .byPath hgiven hkey hw⟩
  · obtain ⟨handle, hhandle⟩ := not_forall.1 hgiven
    rw [Classical.not_imp] at hhandle
    obtain ⟨rfl, hhandle⟩ := hhandle
    cases hw : m.writer? handle with
    | none => exact Or.inr (Or.inl (.byHandle hhandle hw))
    | some w => exact Or.inl ⟨handle, w, .byHandle hhandle hw⟩

end Addressed

theorem perform_truncate_of_leads {path : Value} {given : Option Int}
    (h : m.Leads path given handle w) (t : Tree) (length : Int) :
    (truncate t path length given).perform backend m s =
      (some (((w.truncate (some length)).1.map fun _ => ()).mapError refusal,
        m.setWriter handle (w.truncate (some length)).2), s) := by
  unfold truncate
  rw [MountAction.perform_bind, MountAction.perform_of_run (addressed_of_leads h)]
  dsimp only
  rw [MountAction.perform_modify_bind]
  cases (w.truncate (some length)).1 with
  | ok size => rfl
  | error misuse => rfl

/-- The size of a file that is open for writing is that of its buffer. -/
theorem perform_getAttributes_of_leads {path : Value} {given : Option Int} {count : Nat}
    (h : m.Leads path given handle w) (hopen : w.isClosed = false) (hsize : w.size = .ok count)
    (t : Tree) :
    (getAttributes t path given).perform backend m s =
      (some (.ok (.ofFile count none), m), s) := by
  unfold getAttributes
  rw [MountAction.perform_bind, MountAction.perform_of_run (addressed_of_leads h)]
  simp only [hopen, Bool.not_false, if_true, hsize]
  rfl

/-! ## Handles with a writer -/

theorem perform_read (h : m.writer? handle = some w) (t : Tree) (path : Value)
    (size offset : Int) :
    (read t path size offset (some handle)).perform backend m s =
      (some ((w.readAt offset size).1.mapError refusal,
        m.setWriter handle (w.readAt offset size).2), s) := by
  unfold read
  rw [MountAction.perform_get_bind, Option.bind_some, h]
  exact perform_passed _ _ _

theorem perform_write (h : m.writer? handle = some w) (data : Bytes) (offset : Int) :
    (write data offset (some handle)).perform backend m s =
      (some ((w.writeAt data offset).1.mapError refusal,
        m.setWriter handle (w.writeAt data offset).2), s) := by
  unfold write
  rw [MountAction.perform_get_bind, Option.bind_some, h]
  exact perform_passed _ _ _

theorem perform_truncate (h : m.writer? handle = some w) (hhandle : handle ≠ 0) (t : Tree)
    (path : Value) (length : Int) :
    (truncate t path length (some handle)).perform backend m s =
      (some (((w.truncate (some length)).1.map fun _ => ()).mapError refusal,
        m.setWriter handle (w.truncate (some length)).2), s) :=
  perform_truncate_of_leads (.byHandle hhandle h) t length

theorem perform_sync (h : m.writer? handle = some w) {outcome : Except Fault Unit} {w' : Writer}
    (hrun : w.sync.run backend s = (some (outcome, w'), s')) :
    (sync (some handle)).perform backend m s =
      (some (outcome.mapError reportedAs, m.setWriter handle w'), s') := by
  unfold sync
  rw [MountAction.perform_get_bind, Option.bind_some, h]
  dsimp only
  rw [MountAction.perform_bind, MountAction.perform_lift hrun]
  exact perform_reported rfl

theorem perform_release (h : m.writer? handle = some w) {outcome : Except Fault Unit}
    {w' : Writer} (hrun : w.close.run backend s = (some (outcome, w'), s')) :
    (release (some handle)).perform backend m s =
      (some (outcome.mapError reportedAs, m.dropHandle handle), s') := by
  unfold release
  rw [MountAction.perform_get_bind, Option.bind_some, h]
  dsimp only
  rw [MountAction.perform_modify_bind, MountAction.perform_bind, MountAction.perform_lift hrun]
  exact perform_reported rfl

/-! ## Handles without a writer -/

theorem perform_write_of_none (h : m.writer? handle = none) (data : Bytes) (offset : Int) :
    (write data offset (some handle)).perform backend m s =
      (some (.error (.errno .badHandle), m), s) := by
  unfold write
  rw [MountAction.perform_get_bind, Option.bind_some, h]
  rfl

theorem perform_read_of_none (h : m.writer? handle = none) (t : Tree) (path : Value)
    (size offset : Int) (backend : Backend σ) (s : σ) :
    (read t path size offset (some handle)).perform backend m s =
      (reported (t.readOnce path (.int offset) size)).perform backend m s := by
  unfold read
  rw [MountAction.perform_get_bind, Option.bind_some, h]

theorem perform_sync_of_none (h : m.writer? handle = none) :
    (sync (some handle)).perform backend m s = (some (.ok (), m), s) := by
  unfold sync
  rw [MountAction.perform_get_bind, Option.bind_some, h]
  rfl

theorem perform_release_of_none (h : m.writer? handle = none) :
    (release (some handle)).perform backend m s = (some (.ok (), m), s) := by
  unfold release
  rw [MountAction.perform_get_bind, Option.bind_some, h]
  rfl

end Mount

end BucketTree
