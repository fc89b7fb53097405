import BucketTree.Proofs.Mount.Faults
import BucketTree.Proofs.Mount.Halts
import BucketTree.Proofs.Tree.Termination

/-!
# Outcomes of a mount

Every operation of a mount ends, for any faults of the store, with a result, an error number, or one
of two kinds of unreported faults (`Operation.perform_reports`). A path that the tree refuses gives
`EINVAL` in each operation that resolves it. Attributes and truncations without a handle search the
open files first, and pass the refusal of the path on unchanged when that search refuses it.
-/

set_option autoImplicit false

namespace BucketTree

variable {α β σ : Type} {backend : Backend σ} {view : σ → Bucket} {fails : Request → Fault → Prop}
  {s : σ}

/-! ## Refused paths -/

namespace Tree

variable {t : Tree} {path : Value} {fault : Fault} (h : t.resolve path = .error fault)

include h

theorem mkdirs_of_refused (createParents : Bool) (s : σ) :
    (t.mkdirs path createParents).perform backend s = (some (.error fault), s) :=
  perform_key_bind_of_refused h _ s

theorem readOnce_of_refused {offset : Int} (hoffset : 0 ≤ offset) (size : Int) (s : σ) :
    (t.readOnce path (.int offset) size).perform backend s = (some (.error fault), s) :=
  readOnce_of_openForRead_error (openForRead_of_refused h hoffset s)

theorem storeFile_of_refused (data : Bytes) (s : σ) :
    (t.storeFile path data).perform backend s = (some (.error fault), s) := by
  have hwrite : (t.openForWrite path data).perform backend s = (some (.error fault), s) :=
    perform_key_bind_of_refused h _ s
  unfold storeFile
  rw [Action.run_bind, hwrite]

omit h

/-- A rename with a refused path ends with the refusal of the source or else of the destination. -/
theorem rename_of_refused {source destination : Value}
    (h : (∃ fault, t.resolve source = .error fault) ∨ ∃ fault, t.resolve destination = .error fault)
    (cancel : Option Token) (overwrite : Bool) (s : σ) :
    ∃ path fault, t.resolve path = .error fault ∧
      (t.rename source destination cancel overwrite).perform backend s =
        (some (.error fault), s) := by
  cases hsource : t.resolve source with
  | error fault => exact ⟨source, fault, hsource, perform_key_bind_of_refused hsource _ s⟩
  | ok sourceKey =>
      obtain ⟨fault, hdestination⟩ := h.resolve_left fun ⟨fault, hfault⟩ => by
        rw [hsource] at hfault
        cases hfault
      refine ⟨destination, fault, hdestination, ?_⟩
      unfold rename
      rw [Action.run_bind]
      unfold key
      rw [hsource]
      exact perform_key_bind_of_refused hdestination _ s

end Tree

namespace Mount

variable {t : Tree} {root : String} {m : Mount} {path : Value} {fault : Fault}

section Refused

variable (hroot : t.settings.rootUri = .text root) (hopen : t.isOpen = true)
  (hrefused : t.resolve path = .error fault)

include hroot hopen hrefused

/-- On an open tree, the refusal of a path is reported as an invalid argument. -/
theorem reportedAs_of_resolve : reportedAs fault = .errno .invalid := by
  obtain ⟨hclosed, -⟩ | ⟨refusal, rfl⟩ := Tree.resolve_eq_error hroot hrefused
  · rw [hopen] at hclosed
    cases hclosed
  · rfl

theorem reported_of_refused {a : Action α} (ha : a.perform backend s = (some (.error fault), s))
    (m : Mount) :
    (reported a).perform backend m s = (some (.error (.errno .invalid), m), s) := by
  rw [perform_reported ha, ← reportedAs_of_resolve hroot hopen hrefused]
  rfl

/-- An operation that starts with an action on a refused path ends with an invalid argument. -/
theorem reported_bind_of_refused {a : Action α}
    (ha : a.perform backend s = (some (.error fault), s)) (f : α → MountAction β) (m : Mount) :
    MountAction.perform backend (reported a >>= f) m s =
      (some (.error (.errno .invalid), m), s) := by
  rw [MountAction.perform_bind, reported_of_refused hroot hopen hrefused ha m]

theorem reported_key_bind_of_refused (g : Key → Action α) (f : α → MountAction β) (m : Mount)
    (s : σ) :
    MountAction.perform backend (reported (t.key path >>= g) >>= f) m s =
      (some (.error (.errno .invalid), m), s) :=
  reported_bind_of_refused hroot hopen hrefused (Tree.perform_key_bind_of_refused hrefused g s) f m

/-- The operation `getAttributes` on a refused path ends with an invalid argument, when no open
writer is found. -/
theorem getAttributes_of_refused {given : Option Int}
    (h : m.LeadsNowhere path given ∨ ∃ handle w, m.Leads path given handle w ∧ w.isClosed = true)
    (s : σ) :
    (getAttributes t path given).perform backend m s =
      (some (.error (.errno .invalid), m), s) := by
  unfold getAttributes
  rw [MountAction.perform_bind]
  obtain hnowhere | ⟨handle, w, hlead, hclosed⟩ := h
  · rw [MountAction.perform_of_run (addressed_of_leadsNowhere hnowhere)]
    exact reported_key_bind_of_refused hroot hopen hrefused _ _ m s
  · rw [MountAction.perform_of_run (addressed_of_leads hlead)]
    simp only [hclosed]
    exact reported_key_bind_of_refused hroot hopen hrefused _ _ m s

theorem openFile_of_refused (flags : Int) (m : Mount) (s : σ) :
    (openFile t path flags).perform backend m s = (some (.error (.errno .invalid), m), s) := by
  unfold openFile
  split
  · exact reported_key_bind_of_refused hroot hopen hrefused _ _ m s
  · dsimp only
    split
    · exact reported_key_bind_of_refused hroot hopen hrefused _ _ m s
    · exact reported_key_bind_of_refused hroot hopen hrefused _ _ m s

theorem read_of_refused (size offset : Nat) {given : Option Int}
    (hnone : given.bind m.writer? = none) (s : σ) :
    (read t path size offset given).perform backend m s =
      (some (.error (.errno .invalid), m), s) := by
  unfold read
  rw [MountAction.perform_get_bind, hnone]
  exact reported_of_refused hroot hopen hrefused
    (Tree.readOnce_of_refused hrefused (Int.natCast_nonneg offset) size s) m

theorem truncate_of_refused (length : Nat) {given : Option Int} (h : m.LeadsNowhere path given)
    (s : σ) :
    (truncate t path length given).perform backend m s =
      (some (.error (.errno .invalid), m), s) := by
  unfold truncate
  rw [MountAction.perform_bind, MountAction.perform_of_run (addressed_of_leadsNowhere h)]
  dsimp only
  split
  · exact reported_bind_of_refused hroot hopen hrefused
      (Tree.readOnce_of_refused hrefused (Int.le_refl 0) length s) _ m
  next hlength =>
    obtain rfl : length = 0 := by omega
    exact reported_of_refused hroot hopen hrefused (Tree.storeFile_of_refused hrefused _ s) m

omit hrefused

theorem rename_of_refused {source destination : Value}
    (h : (∃ fault, t.resolve source = .error fault) ∨ ∃ fault, t.resolve destination = .error fault)
    (m : Mount) (s : σ) :
    (rename t source destination).perform backend m s =
      (some (.error (.errno .invalid), m), s) := by
  obtain ⟨path, fault, hrefused, hrename⟩ : ∃ path fault, t.resolve path = .error fault ∧
      (t.rename source destination none true).perform backend s = (some (.error fault), s) :=
    Tree.rename_of_refused h none true s
  refine (perform_reported_discard hrename).trans ?_
  rw [← reportedAs_of_resolve hroot hopen hrefused]
  rfl

end Refused

/-! ## Ends -/

/-- An operation ends if its first part does and the rest halts. -/
theorem ends_bind {a : MountAction α} {f : α → MountAction β}
    (h : (a.perform backend m s).1 ≠ none) (hrest : ∀ x, Recorded.Halts (f x)) :
    (MountAction.perform backend (a >>= f) m s).1 ≠ none := by
  rw [MountAction.perform_bind]
  rcases hrun : a.perform backend m s with ⟨_ | ⟨_ | x, m'⟩, s'⟩
  · rw [hrun] at h
    exact absurd rfl h
  · exact Option.some_ne_none _
  · obtain ⟨r, s'', hend⟩ := (hrest x m').exists_run backend s'
    exact ne_of_eq_of_ne (congrArg Prod.fst hend) (Option.some_ne_none r)

theorem ends_reported {a : Action α} (h : (a.perform backend s).1 ≠ none) (m : Mount) :
    ((reported a).perform backend m s).1 ≠ none := by
  rcases hrun : a.perform backend s with ⟨_ | r, s'⟩
  · rw [hrun] at h
    exact absurd rfl h
  · rw [perform_reported hrun]
    exact Option.some_ne_none _

theorem ends_of_halts {a : MountAction α} (h : Recorded.Halts a) (m : Mount) (s : σ) :
    (a.perform backend m s).1 ≠ none := by
  obtain ⟨r, s', hend⟩ := (h m).exists_run backend s
  exact ne_of_eq_of_ne (congrArg Prod.fst hend) (Option.some_ne_none r)

/-! ## Operations -/

/-- The operations of a mount with their arguments. -/
inductive Operation where
  | getAttributes (path : Value) (handle : Option Int)
  | readDirectory (path : Value)
  | makeDirectory (path : Value) (mode : Int)
  | removeDirectory (path : Value)
  | unlink (path : Value)
  | rename (source destination : Value)
  | create (path : Value) (mode : Int)
  | openFile (path : Value) (flags : Int)
  | read (path : Value) (size offset : Nat) (handle : Option Int)
  | write (data : Bytes) (offset : Nat) (handle : Option Int)
  | truncate (path : Value) (length : Nat) (handle : Option Int)
  | sync (handle : Option Int)
  | release (handle : Option Int)

namespace Operation

/-- Performs the operation and discards its result. -/
def perform (t : Tree) : Operation → MountAction Unit
  | .getAttributes path handle => discard <| Mount.getAttributes t path handle
  | .readDirectory path => discard <| Mount.readDirectory t path
  | .makeDirectory path mode => Mount.makeDirectory t path (.int mode)
  | .removeDirectory path => Mount.removeDirectory t path
  | .unlink path => Mount.unlink t path
  | .rename source destination => Mount.rename t source destination
  | .create path mode => discard <| Mount.create t path (.int mode)
  | .openFile path flags => discard <| Mount.openFile t path flags
  | .read path size offset handle => discard <| Mount.read t path size offset handle
  | .write data offset handle => discard <| Mount.write data offset handle
  | .truncate path length handle => Mount.truncate t path length handle
  | .sync handle => Mount.sync handle
  | .release handle => Mount.release handle

/-- The buffers that the operation may use are in order, and what it reads or writes fits into
memory. -/
def HasRoom (m : Mount) : Operation → Prop
  | .getAttributes _ _ => m.HasRoom
  | .read _ size offset _ =>
      m.HasRoom ∧ (offset : Int) < Word.memoryLimit ∧ (size : Int) < Word.memoryLimit
  | .write data offset _ => m.HasRoom ∧ (offset + data.length : Int) < Word.memoryLimit
  | .truncate _ length _ => m.HasRoom ∧ (length : Int) < Word.memoryLimit
  | .sync _ => m.HasRoom
  | .release _ => m.HasRoom
  | _ => True

/-- The operation searches the open files by a path that is refused. -/
def PassesOn (refusal : PathRefusal) : Operation → Prop
  | .getAttributes path given =>
      (∀ h ∈ given, h = 0) ∧ Path.toKey path "" = .error refusal
  | .truncate path _ given => (∀ h ∈ given, h = 0) ∧ Path.toKey path "" = .error refusal
  | _ => False

/-- The operation resolves the path. -/
def Resolves (m : Mount) (path : Value) : Operation → Prop
  | .getAttributes given handle => given = path ∧ (m.LeadsNowhere path handle ∨
      ∃ h w, m.Leads path handle h w ∧ w.isClosed = true)
  | .readDirectory given => given = path
  | .makeDirectory given _ => given = path
  | .removeDirectory given => given = path
  | .unlink given => given = path
  | .rename source destination => source = path ∨ destination = path
  | .create given _ => given = path
  | .openFile given _ => given = path
  | .read given _ _ handle => given = path ∧ handle.bind m.writer? = none
  | .truncate given _ handle => given = path ∧ m.LeadsNowhere path handle
  | _ => False

/-! ## What gets out -/

/-- On a sound store, an operation raises error numbers, misuses when something does not fit into
memory, and refusals that it passes on. -/
theorem raises (hroot : t.settings.rootUri = .text root) (op : Operation) (m : Mount) :
    (op.perform t).RaisesFrom .sound (fun r => r.IsErrnoUnless (¬ op.HasRoom m) ∨
      ∃ refusal, op.PassesOn refusal ∧ r = .fault (.known (.ofRefusal refusal))) m := by
  have hreports : ∀ {a : MountAction Unit},
      a.RaisesFrom .sound (Refusal.IsErrnoUnless (¬ op.HasRoom m)) m →
        a.RaisesFrom .sound (fun r => r.IsErrnoUnless (¬ op.HasRoom m) ∨
          ∃ refusal, op.PassesOn refusal ∧ r = .fault (.known (.ofRefusal refusal))) m :=
    fun h => h.mono fun _ => Or.inl
  have hsearched : ∀ {path : Value} {given : Option Int},
      (∀ r : Refusal, r.IsRefusedSearch path given →
        ∃ refusal, op.PassesOn refusal ∧ r = .fault (.known (.ofRefusal refusal))) →
      ∀ {a : MountAction Unit}, a.RaisesFrom .sound (fun r => r.IsErrnoUnless (¬ op.HasRoom m) ∨
          r.IsRefusedSearch path given) m →
        a.RaisesFrom .sound (fun r => r.IsErrnoUnless (¬ op.HasRoom m) ∨
          ∃ refusal, op.PassesOn refusal ∧ r = .fault (.known (.ofRefusal refusal))) m :=
    fun hpasses _ h => h.mono fun r => Or.imp_right (hpasses r)
  cases op with
  | getAttributes path handle =>
      refine hsearched ?_ (raises_getAttributes hroot path handle m).discard
      rintro r ⟨hgiven, refusal, hkey, rfl⟩
      exact ⟨refusal, ⟨hgiven, hkey⟩, rfl⟩
  | readDirectory path => exact hreports ((raises_readDirectory hroot path).discard m)
  | makeDirectory path mode => exact hreports (raises_makeDirectory hroot path mode m)
  | removeDirectory path => exact hreports (raises_removeDirectory hroot path m)
  | unlink path => exact hreports (raises_unlink hroot path m)
  | rename source destination => exact hreports (raises_rename hroot source destination m)
  | create path mode => exact hreports ((raises_create hroot path mode).discard m)
  | openFile path flags => exact hreports ((raises_openFile hroot path flags).discard m)
  | read path size offset handle =>
      exact hreports (raises_read hroot path size offset handle m).discard
  | write data offset handle => exact hreports (raises_write data offset handle m).discard
  | truncate path length handle =>
      refine hsearched ?_ (raises_truncate hroot path length handle m)
      rintro r ⟨hgiven, refusal, hkey, rfl⟩
      exact ⟨refusal, ⟨hgiven, hkey⟩, rfl⟩
  | sync handle => exact hreports (raises_sync handle m)
  | release handle => exact hreports (raises_release handle m)

/-- An operation that passes on the refusal of its path ends with it. -/
theorem perform_of_passesOn {op : Operation} {refusal : PathRefusal} (h : op.PassesOn refusal)
    (t : Tree) (backend : Backend σ) (m : Mount) (s : σ) :
    (op.perform t).perform backend m s =
      (some (.error (.fault (.known (.ofRefusal refusal))), m), s) := by
  have hsearch : ∀ {path : Value} {given : Option Int},
      (∀ h ∈ given, h = 0) ∧ Path.toKey path "" = .error refusal →
      ∀ {β : Type} (f : Option (Int × Writer) → MountAction β),
        MountAction.perform backend (addressed path given >>= f) m s =
          (some (.error (.fault (.known (.ofRefusal refusal))), m), s) := by
    intro path given hrefused β f
    rw [MountAction.perform_bind,
      MountAction.perform_of_run (addressed_of_refused hrefused.1 hrefused.2 m)]
  cases op with
  | getAttributes path given => exact MountAction.perform_discard_of_error (hsearch h _)
  | truncate path length given => exact hsearch h _
  | _ => exact h.elim

/-- An operation that resolves a path that the tree refuses ends with an invalid argument. -/
theorem perform_of_resolves (hroot : t.settings.rootUri = .text root) (hopen : t.isOpen = true)
    (hrefused : t.resolve path = .error fault) {op : Operation} (h : op.Resolves m path)
    (backend : Backend σ) (s : σ) :
    (op.perform t).perform backend m s = (some (.error (.errno .invalid), m), s) := by
  cases op with
  | getAttributes given handle =>
      obtain ⟨rfl, h⟩ := h
      exact MountAction.perform_discard_of_error
        (getAttributes_of_refused hroot hopen hrefused h s)
  | readDirectory given =>
      obtain rfl := h
      exact MountAction.perform_discard_of_error
        (reported_key_bind_of_refused hroot hopen hrefused _ _ m s)
  | makeDirectory given mode =>
      obtain rfl := h
      exact reported_bind_of_refused hroot hopen hrefused
        (Tree.mkdirs_of_refused hrefused false s) _ m
  | removeDirectory given =>
      obtain rfl := h
      exact reported_key_bind_of_refused hroot hopen hrefused _ _ m s
  | unlink given =>
      obtain rfl := h
      exact reported_key_bind_of_refused hroot hopen hrefused _ _ m s
  | rename source destination =>
      refine rename_of_refused hroot hopen (h.imp ?_ ?_) m s
      · rintro rfl
        exact ⟨fault, hrefused⟩
      · rintro rfl
        exact ⟨fault, hrefused⟩
  | create given mode =>
      obtain rfl := h
      exact MountAction.perform_discard_of_error
        (reported_key_bind_of_refused hroot hopen hrefused _ _ m s)
  | openFile given flags =>
      obtain rfl := h
      exact MountAction.perform_discard_of_error
        (openFile_of_refused hroot hopen hrefused flags m s)
  | read given size offset handle =>
      obtain ⟨rfl, hnone⟩ := h
      exact MountAction.perform_discard_of_error
        (read_of_refused hroot hopen hrefused size offset hnone s)
  | truncate given length handle =>
      obtain ⟨rfl, hnowhere⟩ := h
      exact truncate_of_refused hroot hopen hrefused length hnowhere s
  | _ => exact h.elim

/-! ## How operations end -/

/-- Every operation ends, if the page limit exceeds the number of keys by at least two. -/
theorem ends_perform (hf : backend.Follows view (Bucket.environment fails)) (t : Tree)
    (op : Operation) (m : Mount) (hpages : (view s).keys.length + 2 ≤ t.pageLimit) :
    ((op.perform t).perform backend m s).1 ≠ none := by
  cases op with
  | getAttributes path handle => exact ends_of_halts (halts_getAttributes t path handle).discard m s
  | readDirectory path =>
      have hlist := ((t.ends_list path false none hpages).run hf).2
      exact ends_bind (ends_bind (ends_reported hlist m) fun _ => Recorded.halts_pure _)
        fun _ => Recorded.halts_pure _
  | makeDirectory path mode => exact ends_of_halts (halts_makeDirectory t path _) m s
  | removeDirectory path => exact ends_of_halts (halts_removeDirectory t path) m s
  | unlink path => exact ends_of_halts (halts_unlink t path) m s
  | rename source destination =>
      have hrename := ((t.ends_rename source destination none true hpages).run hf).2
      rcases hrun : (t.rename source destination none true).perform backend s with ⟨_ | r, s'⟩
      · rw [hrun] at hrename
        exact absurd rfl hrename
      · exact ne_of_eq_of_ne (congrArg Prod.fst (perform_reported_discard hrun))
          (Option.some_ne_none _)
  | create path mode => exact ends_of_halts (halts_create t path _).discard m s
  | openFile path flags => exact ends_of_halts (halts_openFile t path flags).discard m s
  | read path size offset handle =>
      exact ends_of_halts (halts_read t path size offset handle).discard m s
  | write data offset handle => exact ends_of_halts (halts_write data offset handle).discard m s
  | truncate path length handle => exact ends_of_halts (halts_truncate t path length handle) m s
  | sync handle => exact ends_of_halts (halts_sync handle) m s
  | release handle => exact ends_of_halts (halts_release handle) m s

/-- Every operation of a mount ends, for any faults of the store. A fault that is not reported as an
error number is the refusal of the path by which the operation searches the open files, or a misuse
because something does not fit into memory. A path that the tree refuses is reported as an invalid
argument by every operation that resolves it. -/
theorem perform_reports (hf : backend.Follows view (Bucket.environment fails))
    (hroot : t.settings.rootUri = .text root) (op : Operation) (m : Mount)
    (hpages : (view s).keys.length + 2 ≤ t.pageLimit) :
    ∃ outcome m' s', (op.perform t).perform backend m s = (some (outcome, m'), s') ∧
      (∀ fault, outcome = .error (.fault fault) →
        (∃ refusal, op.PassesOn refusal ∧ fault = .known (.ofRefusal refusal)) ∨
          ¬ op.HasRoom m ∧ ∃ misuse, fault = .misuse misuse) ∧
      (∀ refusal, op.PassesOn refusal →
        outcome = .error (.fault (.known (.ofRefusal refusal)))) ∧
      ∀ path fault, t.isOpen = true → t.resolve path = .error fault → op.Resolves m path →
        outcome = .error (.errno .invalid) := by
  have hends := ends_perform hf t op m hpages
  have hraises := (Program.Keeps.run hf.honors_sound (op.raises hroot m) (s := s) trivial).2
  rcases hrun : (op.perform t).perform backend m s with ⟨_ | ⟨outcome, m'⟩, s'⟩
  · rw [hrun] at hends
    exact absurd rfl hends
  refine ⟨outcome, m', s', rfl, ?_, ?_, ?_⟩
  · rintro fault rfl
    obtain (⟨e, he⟩ | ⟨hroom, misuse, heq⟩) | ⟨refusal, hpasses, heq⟩ :=
      hraises _ (congrArg Prod.fst hrun) _ rfl
    · cases he
    · cases heq
      exact Or.inr ⟨hroom, misuse, rfl⟩
    · cases heq
      exact Or.inl ⟨refusal, hpasses, rfl⟩
  · intro refusal hpasses
    have hpassed := perform_of_passesOn hpasses t backend m s
    rw [hrun] at hpassed
    cases hpassed
    rfl
  · intro path fault hopen hrefused hresolves
    have hinvalid := perform_of_resolves hroot hopen hrefused hresolves backend s
    rw [hrun] at hinvalid
    cases hinvalid
    rfl

open BucketTree.Tree (keyByKey shelf)

theorem perform_reports_above :
    (shelf.bucket "b").keys.length + 2 ≤ keyByKey.pageLimit ∧
    ∃ outcome m' memory',
      ((truncate "/.." 0 none).perform keyByKey).perform (Memory.backend "b") fresh shelf =
        (some (outcome, m'), memory') ∧
      (∀ fault, outcome = .error (.fault fault) →
        (∃ refusal, (truncate "/.." 0 none).PassesOn refusal ∧
          fault = .known (.ofRefusal refusal)) ∨
          ¬ (truncate "/.." 0 none).HasRoom fresh ∧ ∃ misuse, fault = .misuse misuse) ∧
      (∀ refusal, (truncate "/.." 0 none).PassesOn refusal →
        outcome = .error (.fault (.known (.ofRefusal refusal)))) ∧
      ∀ path fault, keyByKey.isOpen = true → keyByKey.resolve path = .error fault →
        (truncate "/.." 0 none).Resolves fresh path → outcome = .error (.errno .invalid) := by
  have hpages : (shelf.bucket "b").keys.length + 2 ≤ keyByKey.pageLimit := by decide +kernel
  exact ⟨hpages,
    perform_reports (Memory.backend_follows "b") rfl (truncate "/.." 0 none) fresh hpages⟩

/-- Reading the directory `/..` fails with `EINVAL`, while attributes and truncation of the same
path raise the refusal itself. -/
theorem refusal_unreported :
    (((readDirectory "/..").perform keyByKey).perform (Memory.backend "b") fresh shelf).1.map
        Prod.fst = some (.error (.errno .invalid)) ∧
    (((getAttributes "/.." none).perform keyByKey).perform (Memory.backend "b") fresh shelf).1.map
        Prod.fst = some (.error (.fault (.known (.ofRefusal ⟨.relative ".." "/..", "/.."⟩)))) ∧
    (((truncate "/.." 0 none).perform keyByKey).perform (Memory.backend "b") fresh shelf).1.map
        Prod.fst = some (.error (.fault (.known (.ofRefusal ⟨.relative ".." "/..", "/.."⟩)))) :=
  ⟨rfl, rfl, rfl⟩

end Operation

end Mount

end BucketTree
