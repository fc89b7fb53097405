import BucketTree.Proofs.Mount.Opening

/-!
# A ledger of open files

A `Ledger` is the specification of a mount for the calls on files, without writers and buffers. It
has a list of bytes for each handle that is open for writing, and one for each key of the store. A
call changes the list of its own handle only (`Ledger.files_after_iff`), an upload makes it the list
of its key (`Ledger.contents_after`), and each opening gets a handle of its own
(`Ledger.next_after`). `Ledger.Answers` states the outcome of each call.
-/

set_option autoImplicit false

namespace BucketTree.Mount

/-! ## Calls -/

/-- The calls of the operating system on files. -/
inductive Call where
  | create (path mode : Value)
  | openFile (path : Value) (flags : Int)
  | read (path : Value) (offset length : Nat) (handle : Int)
  | write (data : Bytes) (offset : Nat) (handle : Int)
  | truncate (path : Value) (length : Nat) (handle : Int)
  | flush
  | sync (handle : Int)
  | release (handle : Int)

/-- The replies to calls. -/
inductive Reply where
  | handle (handle : Nat)
  | content (bytes : Bytes)
  | count (count : Nat)
  | done

/-- A call with its outcome. -/
abbrev Event := Call × Except Refusal Reply

namespace Call

/-- Performs a call. -/
def perform (t : Tree) : Call → MountAction Reply
  | .create path mode => return .handle (← Mount.create t path mode)
  | .openFile path flags => return .handle (← Mount.openFile t path flags)
  | .read path offset length handle =>
      return .content (← Mount.read t path length offset (some handle))
  | .write data offset handle => return .count (← Mount.write data offset (some handle))
  | .truncate path length handle => do
      Mount.truncate t path length (some handle)
      return .done
  | .flush => return .done
  | .sync handle => do
      Mount.sync (some handle)
      return .done
  | .release handle => do
      Mount.release (some handle)
      return .done

/-- The handle of a call. -/
def handle? : Call → Option Int
  | .read _ _ _ handle => some handle
  | .write _ _ handle => some handle
  | .truncate _ _ handle => some handle
  | .sync handle => some handle
  | .release handle => some handle
  | _ => none

/-- The bytes under a handle after a call. -/
def onBuffer (handle : Int) (bytes : Bytes) : Call → Bytes
  | .write data offset h => if h = handle then bytes.overlay offset data else bytes
  | .truncate _ length h => if h = handle then bytes.take length else bytes
  | _ => bytes

end Call

/-! ## The ledger -/

/-- The lists of bytes under the handles that are open for writing and under the keys of a store. -/
structure Ledger where
  /-- The next handle to be given out. -/
  next : Nat
  files : Int → Option (Key × Bytes)
  contents : Contents
  /-- The number of uploads so far. -/
  uploads : Nat
  clock : Clock

namespace Ledger

variable (t : Tree) (l : Ledger)

/-- The ledger of a store without open files. -/
def ofMemory (name : String) (memory : Memory) : Ledger :=
  ⟨1, fun _ => none, (memory.bucket name).contents, memory.count.put, memory.clock⟩

/-- The key and the bytes with which a call opens a file for writing. -/
def opening? : Call → Option (Key × Bytes)
  | .create path _ => (t.resolve path).toOption.map fun key => (key, [])
  | .openFile path flags =>
      if isReadOnly flags then none
      else (t.resolve path).toOption.map fun key => (key, opening flags l.contents key)
  | _ => none

/-- The key and the bytes that a call uploads. -/
def uploaded? : Call → Option (Key × Bytes)
  | .sync handle => l.files handle
  | .release handle => l.files handle
  | _ => none

/-- The ledger after a handle was given out, with a file under it if it is open for writing. -/
def handOut (file : Option (Key × Bytes)) : Ledger :=
  { l with next := l.next + 1, files := Function.update l.files l.next file }

/-- The ledger after a change of the bytes under a handle. -/
def change (handle : Int) (f : Bytes → Bytes) : Ledger :=
  { l with
    files := Function.update l.files handle ((l.files handle).map fun file => (file.1, f file.2)) }

/-- The ledger after an upload. -/
def upload (file : Option (Key × Bytes)) : Ledger :=
  match file with
  | none => l
  | some (key, bytes) =>
      { l with
        contents := Function.update l.contents key (some bytes)
        uploads := l.uploads + 1
        clock := { l.clock with now := l.clock.now + l.clock.step } }

/-- The ledger after a handle was released. -/
def drop (handle : Int) : Ledger := { l with files := Function.update l.files handle none }

/-- The ledger after an event. A refused opening leaves it alone. -/
def after : Event → Ledger
  | (.create path mode, .ok _) => l.handOut (l.opening? t (.create path mode))
  | (.openFile path flags, .ok _) => l.handOut (l.opening? t (.openFile path flags))
  | (.write data offset handle, _) => l.change handle (·.overlay offset data)
  | (.truncate _ length handle, _) => l.change handle (·.take length)
  | (.sync handle, _) => l.upload (l.files handle)
  | (.release handle, _) => (l.upload (l.files handle)).drop handle
  | _ => l

/-! ## What a call is answered -/

/-- The path and the arguments of an opening are valid. -/
def CanOpen : Call → Prop
  | .create path mode => Tree.setMode mode = .ok () ∧ ∃ key, t.Names path key
  | .openFile path flags =>
      ∃ key, t.Names path key ∧ (isReadOnly flags = true → l.contents key ≠ none)
  | _ => False

/-- The outcome of the event is that of the ledger. -/
def Answers : Event → Prop
  | (.read _ offset length handle, outcome) =>
      match l.files handle with
      | some (_, bytes) => outcome = .ok (.content ((bytes.drop offset).take length))
      | none => ∃ stored : Except Refusal Bytes, outcome = stored.map .content
  | (.write data _ handle, outcome) =>
      outcome =
        if (l.files handle).isSome then .ok (.count data.length) else .error (.errno .badHandle)
  | (.truncate _ _ _, outcome) => outcome = .ok .done
  | (.flush, outcome) => outcome = .ok .done
  | (.sync _, outcome) => outcome = .ok .done
  | (.release _, outcome) => outcome = .ok .done
  | (call, outcome) =>
      (l.CanOpen t call ∧ outcome = .ok (.handle l.next)) ∨
        (¬ l.CanOpen t call ∧ ∃ refusal, outcome = .error refusal)

/-- A truncation is of a file that is open for writing, to at most its length. -/
def IsLegal : Call → Prop
  | .truncate _ length handle => ∃ file ∈ l.files handle, length ≤ file.2.length
  | _ => True

/-- A call on a file that is open for writing is not refused. -/
def IsServed (e : Event) : Prop :=
  ∀ handle, e.1.handle? = some handle → l.files handle ≠ none → ∃ reply, e.2 = .ok reply

/-- Everything that the call reaches fits into memory, and for an upload the clock shows a valid
time. -/
def Fits : Call → Prop
  | .write data offset _ => (offset + data.length : Int) < Word.memoryLimit
  | .read _ offset length _ =>
      (offset : Int) < Word.memoryLimit ∧ (length : Int) < Word.memoryLimit
  | .sync _ => Moment.clockFault? l.clock.now = none
  | .release _ => Moment.clockFault? l.clock.now = none
  | _ => True

instance : DecidablePred l.IsLegal
  | .truncate _ length handle =>
      inferInstanceAs (Decidable (∃ file ∈ l.files handle, length ≤ file.2.length))
  | .create _ _ | .openFile _ _ | .read _ _ _ _ | .write _ _ _ | .flush | .sync _ | .release _ =>
      isTrue trivial

instance : DecidablePred l.Fits
  | .write data offset _ =>
      inferInstanceAs (Decidable ((offset + data.length : Int) < Word.memoryLimit))
  | .read _ offset length _ =>
      inferInstanceAs (Decidable ((offset : Int) < Word.memoryLimit ∧
        (length : Int) < Word.memoryLimit))
  | .sync _ | .release _ =>
      inferInstanceAs (Decidable (Moment.clockFault? l.clock.now = none))
  | .create _ _ | .openFile _ _ | .truncate _ _ _ | .flush => isTrue trivial

/-! ## Files -/

variable {t l} {e : Event} {handle : Int} {key : Key} {bytes : Bytes}

theorem opening?_create {path : Value} (h : t.Names path key) (mode : Value) :
    l.opening? t (.create path mode) = some (key, []) := by
  show (t.resolve path).toOption.map (fun key => (key, ([] : Bytes))) = _
  rw [h.1]
  rfl

/-- An opening for reading opens no file for writing. -/
theorem opening?_toRead {flags : Int} (hflags : isReadOnly flags = true) (path : Value) :
    l.opening? t (.openFile path flags) = none := if_pos hflags

theorem opening?_toWrite {path : Value} {flags : Int} (hflags : isReadOnly flags = false)
    (h : t.Names path key) :
    l.opening? t (.openFile path flags) = some (key, opening flags l.contents key) := by
  show (if isReadOnly flags = true then none else Option.map _ (t.resolve path).toOption) = _
  rw [hflags, if_neg Bool.false_ne_true, h.1]
  rfl

/-- Handles start at one, and all open files have handles that were given out. -/
structure IsProper (l : Ledger) : Prop where
  one_le : 1 ≤ l.next
  bounds : ∀ handle, l.files handle ≠ none → 0 < handle ∧ handle < l.next

theorem isProper_ofMemory (name : String) (memory : Memory) : (ofMemory name memory).IsProper :=
  ⟨Nat.le_refl 1, fun _ h => absurd rfl h⟩

theorem upload_next (file : Option (Key × Bytes)) : (l.upload file).next = l.next := by
  cases file <;> rfl

theorem upload_files (file : Option (Key × Bytes)) : (l.upload file).files = l.files := by
  cases file <;> rfl

theorem change_id (l : Ledger) (handle : Int) : l.change handle id = l := by
  have hsame : (l.files handle).map (fun file => (file.1, id file.2)) = l.files handle :=
    Option.map_id' ..
  unfold change
  rw [hsame, Function.update_eq_self]

theorem change_of_none (hfile : l.files handle = none) (f : Bytes → Bytes) :
    l.change handle f = l := by
  unfold change
  rw [hfile, Option.map_none, ← hfile, Function.update_eq_self]

theorem drop_of_none (hfile : l.files handle = none) : l.drop handle = l := by
  unfold drop
  rw [← hfile, Function.update_eq_self]

theorem IsProper.change (h : l.IsProper) (handle : Int) (f : Bytes → Bytes) :
    (l.change handle f).IsProper := by
  refine ⟨h.one_le, fun other hother => h.bounds other fun hnone => hother ?_⟩
  show Function.update l.files handle _ other = none
  rw [Function.update_apply]
  split
  next heq => rw [← heq, hnone]; rfl
  next => exact hnone

theorem IsProper.handOut (h : l.IsProper) (file : Option (Key × Bytes)) :
    (l.handOut file).IsProper := by
  have hone := h.one_le
  refine ⟨Nat.le_succ_of_le hone, fun other hother => ?_⟩
  change Function.update l.files l.next file other ≠ none at hother
  show 0 < other ∧ other < ((l.next + 1 : Nat) : Int)
  rw [Function.update_apply] at hother
  split at hother
  · omega
  · have := h.bounds other hother
    omega

theorem IsProper.upload (h : l.IsProper) (file : Option (Key × Bytes)) :
    (l.upload file).IsProper := by
  refine ⟨?_, ?_⟩
  · rw [upload_next]
    exact h.one_le
  · rw [upload_next, upload_files]
    exact h.bounds

theorem IsProper.drop (h : l.IsProper) (handle : Int) : (l.drop handle).IsProper := by
  refine ⟨h.one_le, fun other hother => h.bounds other fun hnone => hother ?_⟩
  show Function.update l.files handle none other = none
  rw [Function.update_apply, hnone, ite_self]

theorem IsProper.after (h : l.IsProper) (t : Tree) (e : Event) : (l.after t e).IsProper := by
  obtain ⟨call, outcome⟩ := e
  cases call with
  | create path mode =>
      cases outcome with
      | ok reply => exact h.handOut _
      | error refusal => exact h
  | openFile path flags =>
      cases outcome with
      | ok reply => exact h.handOut _
      | error refusal => exact h
  | read path offset length handle => exact h
  | write data offset handle => exact h.change handle fun bytes => bytes.overlay offset data
  | truncate path length handle => exact h.change handle fun bytes => bytes.take length
  | flush => exact h
  | sync handle => exact h.upload _
  | release handle => exact (h.upload _).drop handle

/-- The handle that an event gives out. -/
def handedOut? (e : Event) : Option Nat :=
  match e.2 with
  | .ok (.handle n) => some n
  | _ => none

/-- The event opens a file for writing, under a handle that it gives out. -/
def Opens (t : Tree) (l : Ledger) (e : Event) (handle : Int) (key : Key) (bytes : Bytes) : Prop :=
  l.opening? t e.1 = some (key, bytes) ∧ ∃ n ∈ handedOut? e, (n : Int) = handle

theorem handOut_files_iff (h : l.IsProper) (file : Option (Key × Bytes)) :
    (l.handOut file).files handle = some (key, bytes) ↔
      l.files handle = some (key, bytes) ∨
        (file = some (key, bytes) ∧ (l.next : Int) = handle) := by
  show Function.update l.files l.next file handle = some (key, bytes) ↔ _
  rw [Function.update_apply]
  split
  next heq =>
    -- the next handle is above all that have a file
    have hfree : l.files handle = none := by
      by_contra hopen
      have := h.bounds handle hopen
      omega
    rw [hfree, heq]
    simp
  next hne => simp [Ne.symm hne]

theorem change_files_iff (other : Int) (f : Bytes → Bytes) :
    (l.change other f).files handle = some (key, bytes) ↔
      ∃ old, l.files handle = some (key, old) ∧
        bytes = if other = handle then f old else old := by
  show Function.update l.files other _ handle = some (key, bytes) ↔ _
  rw [Function.update_apply]
  by_cases hother : other = handle
  · subst hother
    rw [if_pos rfl, Option.map_eq_some_iff]
    constructor
    · rintro ⟨⟨k, old⟩, hold, hchanged⟩
      obtain ⟨rfl, rfl⟩ := Prod.mk.inj hchanged
      exact ⟨old, hold, (if_pos rfl).symm⟩
    · rintro ⟨old, hold, hchanged⟩
      rw [if_pos rfl] at hchanged
      exact ⟨(key, old), hold, by rw [hchanged]⟩
  · rw [if_neg (Ne.symm hother)]
    simp [hother]

theorem drop_files_iff (other : Int) :
    (l.drop other).files handle = some (key, bytes) ↔
      l.files handle = some (key, bytes) ∧ other ≠ handle := by
  show Function.update l.files other none handle = some (key, bytes) ↔ _
  rw [Function.update_apply]
  by_cases hother : other = handle
  · simp [hother]
  · simp [hother, Ne.symm hother]

/-- A file is open after an event if the event opens it, or if it was open before and the event does
not release it. A call on another handle leaves its bytes alone. -/
theorem files_after_iff (h : l.IsProper) (hanswer : l.Answers t e) :
    (l.after t e).files handle = some (key, bytes) ↔
      (∃ old, l.files handle = some (key, old) ∧ e.1 ≠ .release handle ∧
        bytes = e.1.onBuffer handle old) ∨ Opens t l e handle key bytes := by
  obtain ⟨call, outcome⟩ := e
  cases call with
  | create path mode =>
      obtain ⟨-, rfl⟩ | ⟨-, refusal, rfl⟩ := hanswer
      · show (l.handOut (l.opening? t (.create path mode))).files handle = _ ↔ _
        rw [handOut_files_iff h]
        simp [Opens, handedOut?, Call.onBuffer]
      · simp [after, Opens, handedOut?, Call.onBuffer]
  | openFile path flags =>
      obtain ⟨-, rfl⟩ | ⟨-, refusal, rfl⟩ := hanswer
      · show (l.handOut (l.opening? t (.openFile path flags))).files handle = _ ↔ _
        rw [handOut_files_iff h]
        simp [Opens, handedOut?, Call.onBuffer]
      · simp [after, Opens, handedOut?, Call.onBuffer]
  | read path offset length other => simp [after, Opens, opening?, Call.onBuffer]
  | write data offset other =>
      show (l.change other fun bytes => bytes.overlay offset data).files handle = _ ↔ _
      rw [change_files_iff]
      simp [Opens, opening?, Call.onBuffer]
  | truncate path length other =>
      show (l.change other fun bytes => bytes.take length).files handle = _ ↔ _
      rw [change_files_iff]
      simp [Opens, opening?, Call.onBuffer]
  | flush => simp [after, Opens, opening?, Call.onBuffer]
  | sync other =>
      show (l.upload _).files handle = _ ↔ _
      rw [upload_files]
      simp [Opens, opening?, Call.onBuffer]
  | release other =>
      show ((l.upload _).drop other).files handle = _ ↔ _
      rw [drop_files_iff, upload_files]
      simp [Opens, opening?, Call.onBuffer]

/-! ## Room -/

/-- All files that are open for writing fit into memory. -/
def FilesFit (l : Ledger) : Prop :=
  ∀ handle key bytes, l.files handle = some (key, bytes) → (bytes.length : Int) < Word.memoryLimit

/-- All objects fit into memory. -/
def ContentsFit (l : Ledger) : Prop :=
  ∀ key bytes, l.contents key = some bytes → (bytes.length : Int) < Word.memoryLimit

/-- The bytes with which a file is opened fit into memory. -/
theorem ContentsFit.opening (h : l.ContentsFit) (flags : Int) (key : Key) :
    ((opening flags l.contents key).length : Int) < Word.memoryLimit := by
  unfold Mount.opening
  split
  · decide
  · cases hstored : l.contents key with
    | none => decide
    | some stored => exact h key stored hstored

theorem ContentsFit.opening? (h : l.ContentsFit) {call : Call}
    (hopening : l.opening? t call = some (key, bytes)) :
    (bytes.length : Int) < Word.memoryLimit := by
  cases call with
  | create path mode =>
      obtain ⟨k, -, hfile⟩ := Option.map_eq_some_iff.1 hopening
      obtain ⟨rfl, rfl⟩ := Prod.mk.inj hfile
      decide
  | openFile path flags =>
      change (if isReadOnly flags = true then none
        else Option.map _ (t.resolve path).toOption) = some (key, bytes) at hopening
      split at hopening
      · cases hopening
      · obtain ⟨k, -, hfile⟩ := Option.map_eq_some_iff.1 hopening
        obtain ⟨rfl, rfl⟩ := Prod.mk.inj hfile
        exact h.opening flags k
  | _ => cases hopening

theorem FilesFit.handOut (h : l.FilesFit) {file : Option (Key × Bytes)}
    (hfile : ∀ key bytes, file = some (key, bytes) → (bytes.length : Int) < Word.memoryLimit) :
    (l.handOut file).FilesFit := by
  intro handle key bytes hopen
  change Function.update l.files l.next file handle = some (key, bytes) at hopen
  rw [Function.update_apply] at hopen
  split at hopen
  · exact hfile key bytes hopen
  · exact h handle key bytes hopen

theorem FilesFit.change (h : l.FilesFit) {f : Bytes → Bytes}
    (hf : ∀ bytes : Bytes, (bytes.length : Int) < Word.memoryLimit →
      ((f bytes).length : Int) < Word.memoryLimit) (handle : Int) :
    (l.change handle f).FilesFit := by
  intro other key bytes hopen
  change Function.update l.files handle _ other = some (key, bytes) at hopen
  rw [Function.update_apply] at hopen
  split at hopen
  · obtain ⟨⟨k, old⟩, hold, hchanged⟩ := Option.map_eq_some_iff.1 hopen
    obtain ⟨rfl, rfl⟩ := Prod.mk.inj hchanged
    exact hf old (h handle k old hold)
  · exact h other key bytes hopen

/-- A call that fits keeps all open files within memory. -/
theorem FilesFit.after (h : l.FilesFit) (hcontents : l.ContentsFit) (hfits : l.Fits e.1) :
    (l.after t e).FilesFit := by
  obtain ⟨call, outcome⟩ := e
  cases call with
  | create path mode =>
      cases outcome with
      | ok reply => exact h.handOut fun key bytes hopening => hcontents.opening? hopening
      | error refusal => exact h
  | openFile path flags =>
      cases outcome with
      | ok reply => exact h.handOut fun key bytes hopening => hcontents.opening? hopening
      | error refusal => exact h
  | read path offset length handle => exact h
  | write data offset handle =>
      show (l.change handle fun bytes => bytes.overlay offset data).FilesFit
      refine h.change (fun bytes hbytes => ?_) handle
      have hend : (offset + data.length : Int) < Word.memoryLimit := hfits
      rw [Bytes.length_overlay]
      split <;> omega
  | truncate path length handle =>
      show (l.change handle fun bytes => bytes.take length).FilesFit
      refine h.change (fun bytes hbytes => ?_) handle
      rw [List.length_take]
      omega
  | flush => exact h
  | sync handle =>
      intro other key bytes hopen
      change (l.upload _).files other = some (key, bytes) at hopen
      rw [upload_files] at hopen
      exact h other key bytes hopen
  | release handle =>
      intro other key bytes hopen
      change Function.update (l.upload _).files handle none other = some (key, bytes) at hopen
      rw [Function.update_apply, upload_files] at hopen
      split at hopen
      · cases hopen
      · exact h other key bytes hopen

/-! ## Handles -/

/-- An event gives out the next handle, or none. -/
theorem next_after (hanswer : l.Answers t e) :
    (handedOut? e = some l.next ∧ (l.after t e).next = l.next + 1) ∨
      (handedOut? e = none ∧ (l.after t e).next = l.next) := by
  obtain ⟨call, outcome⟩ := e
  cases call with
  | create path mode =>
      obtain ⟨-, rfl⟩ | ⟨-, refusal, rfl⟩ := hanswer
      · exact Or.inl ⟨rfl, rfl⟩
      · exact Or.inr ⟨rfl, rfl⟩
  | openFile path flags =>
      obtain ⟨-, rfl⟩ | ⟨-, refusal, rfl⟩ := hanswer
      · exact Or.inl ⟨rfl, rfl⟩
      · exact Or.inr ⟨rfl, rfl⟩
  | read path offset length handle =>
      refine Or.inr ⟨?_, rfl⟩
      unfold Answers at hanswer
      dsimp only at hanswer
      split at hanswer
      · obtain rfl := hanswer
        rfl
      · obtain ⟨stored, rfl⟩ := hanswer
        cases stored <;> rfl
  | write data offset handle =>
      refine Or.inr ⟨?_, rfl⟩
      unfold Answers at hanswer
      dsimp only at hanswer
      split at hanswer
      · obtain rfl := hanswer
        rfl
      · obtain rfl := hanswer
        rfl
  | truncate path length handle =>
      obtain rfl : outcome = .ok .done := hanswer
      exact Or.inr ⟨rfl, rfl⟩
  | flush =>
      obtain rfl : outcome = .ok .done := hanswer
      exact Or.inr ⟨rfl, rfl⟩
  | sync handle =>
      obtain rfl : outcome = .ok .done := hanswer
      exact Or.inr ⟨rfl, upload_next _⟩
  | release handle =>
      obtain rfl : outcome = .ok .done := hanswer
      exact Or.inr ⟨rfl, upload_next _⟩

/-! ## Keys -/

/-- The bytes of the last upload to a key. -/
def latest (key : Key) (saves : List (Key × Bytes)) : Option Bytes :=
  (saves.reverse.find? fun save => save.1 == key).map (·.2)

theorem latest_append (key : Key) (saves later : List (Key × Bytes)) :
    latest key (saves ++ later) = (latest key later).or (latest key saves) := by
  unfold latest
  rw [List.reverse_append, List.find?_append, Option.map_or]

/-- An update of the contents by an upload. -/
theorem update_eq_latest (contents : Contents) (saved : Key) (bytes : Bytes) (key : Key) :
    Function.update contents saved (some bytes) key =
      (latest key [(saved, bytes)]).or (contents key) := by
  rw [Function.update_apply]
  by_cases hkey : key = saved
  · simp [latest, hkey]
  · simp [latest, hkey, Ne.symm hkey]

theorem upload_contents (file : Option (Key × Bytes)) (key : Key) :
    (l.upload file).contents key = (latest key file.toList).or (l.contents key) := by
  cases file with
  | none => rfl
  | some file => exact update_eq_latest l.contents file.1 file.2 key

theorem upload_uploads (file : Option (Key × Bytes)) :
    (l.upload file).uploads = l.uploads + file.toList.length := by
  cases file <;> rfl

/-- An event changes the content of a key only by an upload to it. -/
theorem contents_after (t : Tree) (l : Ledger) (e : Event) (key : Key) :
    (l.after t e).contents key = (latest key (l.uploaded? e.1).toList).or (l.contents key) := by
  obtain ⟨call, outcome⟩ := e
  cases call with
  | create path mode => cases outcome <;> rfl
  | openFile path flags => cases outcome <;> rfl
  | read path offset length handle => rfl
  | write data offset handle => rfl
  | truncate path length handle => rfl
  | flush => rfl
  | sync handle => exact upload_contents _ key
  | release handle => exact upload_contents _ key

/-- An event increases the number of uploads by the number of its uploads. -/
theorem uploads_after (t : Tree) (l : Ledger) (e : Event) :
    (l.after t e).uploads = l.uploads + (l.uploaded? e.1).toList.length := by
  obtain ⟨call, outcome⟩ := e
  cases call with
  | create path mode => cases outcome <;> rfl
  | openFile path flags => cases outcome <;> rfl
  | read path offset length handle => rfl
  | write data offset handle => rfl
  | truncate path length handle => rfl
  | flush => rfl
  | sync handle => exact upload_uploads _
  | release handle => exact upload_uploads _

end Ledger

end BucketTree.Mount
