import BucketTree.Proofs.Mount.Halts
import BucketTree.Proofs.Mount.History
import BucketTree.Proofs.Mount.Serving

/-!
# Runs of a mount

Calls on files that are served one after another, on a store in memory, have the results that the
ledger says (`serveAll_accounts`): the table has the files that were opened for writing and not
released since, each with the bytes that the calls on its handle made, and each key of the bucket
has the bytes of the last upload to it.
-/

set_option autoImplicit false

namespace BucketTree.Mount

open Ledger (Along Answers IsServed)

/-- Serves a call. Afterwards each buffer owns its block of memory if nobody else holds it. -/
def serve (t : Tree) (call : Call) (m : Mount) (memory : Memory) :
    Option (Except Refusal Reply × Mount) × Memory :=
  match (call.perform t).perform (Memory.backend t.bucket) m memory with
  | (some (outcome, m), memory) =>
      (some (outcome, m.mapWriters (Writer.reclaim fun block => memory.holds block)), memory)
  | (none, memory) => (none, memory)

/-- Serves a list of calls, and returns the events. -/
def serveAll (t : Tree) : List Call → Mount → Memory → Option (List Event × Mount) × Memory
  | [], m, memory => (some ([], m), memory)
  | call :: rest, m, memory =>
      match serve t call m memory with
      | (some (outcome, m), memory) =>
          match serveAll t rest m memory with
          | (some (events, m), memory) => (some ((call, outcome) :: events, m), memory)
          | (none, memory) => (none, memory)
      | (none, memory) => (none, memory)

variable {t : Tree} {calls : List Call} {events : List Event} {m m' : Mount}
variable {memory memory' : Memory} {l : Ledger}

/-! ## Runs come to an end -/

theorem halts_perform (call : Call) (t : Tree) : Recorded.Halts (call.perform t) := by
  cases call with
  | create path mode => exact (halts_create t path mode).bind fun _ => Recorded.halts_pure _
  | openFile path flags => exact (halts_openFile t path flags).bind fun _ => Recorded.halts_pure _
  | read path offset length handle =>
      exact (halts_read t path _ _ _).bind fun _ => Recorded.halts_pure _
  | write data offset handle => exact (halts_write data _ _).bind fun _ => Recorded.halts_pure _
  | truncate path length handle =>
      exact (halts_truncate t path _ _).bind fun _ => Recorded.halts_pure _
  | flush => exact Recorded.halts_pure _
  | sync handle => exact (halts_sync _).bind fun _ => Recorded.halts_pure _
  | release handle => exact (halts_release _).bind fun _ => Recorded.halts_pure _

theorem exists_serve (t : Tree) (call : Call) (m : Mount) (memory : Memory) :
    ∃ outcome m' memory', serve t call m memory = (some (outcome, m'), memory') := by
  obtain ⟨⟨outcome, m'⟩, memory', hrun⟩ :=
    (halts_perform call t m).exists_run (Memory.backend t.bucket) memory
  change (call.perform t).perform (Memory.backend t.bucket) m memory = _ at hrun
  unfold serve
  rw [hrun]
  exact ⟨_, _, _, rfl⟩

/-- A first call and the calls after it. -/
theorem serveAll_cons {call : Call} {outcome : Except Refusal Reply} {m₁ : Mount}
    {memory₁ : Memory} (hfirst : serve t call m memory = (some (outcome, m₁), memory₁))
    (hrest : serveAll t calls m₁ memory₁ = (some (events, m'), memory')) :
    serveAll t (call :: calls) m memory = (some ((call, outcome) :: events, m'), memory') := by
  rw [serveAll, hfirst]
  dsimp only
  rw [hrest]

/-- Every run ends, with an outcome for each call. -/
theorem exists_serveAll (t : Tree) (calls : List Call) (m : Mount) (memory : Memory) :
    ∃ events m' memory', serveAll t calls m memory = (some (events, m'), memory') ∧
      events.map Prod.fst = calls := by
  induction calls generalizing m memory with
  | nil => exact ⟨[], m, memory, rfl, rfl⟩
  | cons call rest ih =>
      obtain ⟨outcome, m₁, memory₁, hfirst⟩ := exists_serve t call m memory
      obtain ⟨events, m₂, memory₂, hrest, hcalls⟩ := ih m₁ memory₁
      exact ⟨(call, outcome) :: events, m₂, memory₂, serveAll_cons hfirst hrest,
        congrArg (call :: ·) hcalls⟩

/-- The first event of a run is that of its first call. -/
theorem of_serveAll_cons {call : Call} {e : Event}
    (hrun : serveAll t (call :: calls) m memory = (some (e :: events, m'), memory')) :
    e.1 = call ∧ ∃ m₁ memory₁, serve t call m memory = (some (e.2, m₁), memory₁) ∧
      serveAll t calls m₁ memory₁ = (some (events, m'), memory') := by
  obtain ⟨outcome, m₁, memory₁, hfirst⟩ := exists_serve t call m memory
  obtain ⟨others, m₂, memory₂, hrest, -⟩ := exists_serveAll t calls m₁ memory₁
  rw [serveAll_cons hfirst hrest] at hrun
  cases hrun
  exact ⟨rfl, m₁, memory₁, hfirst, hrest⟩

/-- The events up to some moment of a run are the run of the calls up to there. -/
theorem serveAll_of_append {before after : List Event}
    (hrun : serveAll t calls m memory = (some (before ++ after, m'), memory')) :
    ∃ m₁ memory₁, serveAll t (before.map Prod.fst) m memory = (some (before, m₁), memory₁) := by
  induction before generalizing calls m memory with
  | nil => exact ⟨m, memory, rfl⟩
  | cons e rest ih =>
      cases calls with
      | nil => cases hrun
      | cons call calls =>
          obtain ⟨rfl, m₁, memory₁, hfirst, hrest⟩ := of_serveAll_cons hrun
          obtain ⟨m₂, memory₂, hbefore⟩ := ih hrest
          exact ⟨m₂, memory₂, serveAll_cons hfirst hbefore⟩

/-! ## Runs keep the ledger -/

/-- The ledger of a store accounts for a mount without open files. -/
theorem keeps_fresh {name : String} (hfit : (Ledger.ofMemory name memory).ContentsFit) :
    Keeps name .fresh memory (.ofMemory name memory) :=
  ⟨rfl, fun _ => .none, rfl, rfl, rfl, Ledger.isProper_ofMemory name memory, hfit⟩

namespace Keeps

/-- Serving a call keeps the ledger, if the call is served. -/
theorem serve {call : Call} {outcome : Except Refusal Reply} (h : Keeps t.bucket m memory l)
    (hlegal : l.IsLegal call)
    (hrun : Mount.serve t call m memory = (some (outcome, m'), memory')) :
    (l.FilesFit → l.Fits call → l.IsServed (call, outcome)) ∧
      (l.IsServed (call, outcome) → l.Answers t (call, outcome) ∧
        Keeps t.bucket m' memory' (l.after t (call, outcome))) := by
  obtain ⟨o, m₁, memory₁, hdone, hfits, hserved⟩ := h.call call hlegal
  unfold Mount.serve at hrun
  rw [hdone] at hrun
  cases hrun
  refine ⟨hfits, fun hs => ?_⟩
  obtain ⟨hanswer, hkept⟩ := hserved hs
  exact ⟨hanswer, hkept.reclaim _⟩

/-- Serving a list of calls keeps the ledger, if all of them are served. -/
theorem serveAll (h : Keeps t.bucket m memory l)
    (hlegal : Along t (fun l e => l.IsLegal e.1) l events) (hserved : Along t IsServed l events)
    (hrun : Mount.serveAll t calls m memory = (some (events, m'), memory')) :
    Along t (Answers t) l events ∧ Keeps t.bucket m' memory' (l.afterAll t events) := by
  -- the first call keeps the ledger, and from the ledger after it the others go on
  induction events generalizing calls m memory l with
  | nil =>
      -- every call leaves an event, so there was none
      cases calls with
      | nil =>
          cases hrun
          exact ⟨trivial, h⟩
      | cons call rest =>
          obtain ⟨events, m₁, memory₁, hrun', hcalls⟩ := exists_serveAll t (call :: rest) m memory
          rw [hrun] at hrun'
          cases hrun'
          cases hcalls
  | cons e rest ih =>
      cases calls with
      | nil => cases hrun
      | cons call calls =>
          obtain ⟨rfl, m₁, memory₁, hfirst, hrest⟩ := of_serveAll_cons hrun
          obtain ⟨hanswer, hkept⟩ := (h.serve hlegal.1 hfirst).2 hserved.1
          obtain ⟨hanswers, hend⟩ := ih hkept hlegal.2 hserved.2 hrest
          exact ⟨⟨hanswer, hanswers⟩, hend⟩

/-- Calls that fit are served. -/
theorem isServed_of_fits (h : Keeps t.bucket m memory l) (hfit : l.FilesFit)
    (hlegal : Along t (fun l e => l.IsLegal e.1) l events)
    (hfits : Along t (fun l e => l.Fits e.1) l events)
    (hrun : Mount.serveAll t calls m memory = (some (events, m'), memory')) :
    Along t IsServed l events := by
  induction events generalizing calls m memory l with
  | nil => trivial
  | cons e rest ih =>
      cases calls with
      | nil => cases hrun
      | cons call calls =>
          obtain ⟨rfl, m₁, memory₁, hfirst, hrest⟩ := of_serveAll_cons hrun
          obtain ⟨hcan, hdo⟩ := h.serve hlegal.1 hfirst
          have hserved := hcan hfit hfits.1
          exact ⟨hserved, ih (hdo hserved).2 (hfit.after h.contentsFit hfits.1) hlegal.2 hfits.2
            hrest⟩

/-- The writers of the table have the keys and bytes of the ledger. -/
theorem view_eq {name : String} (h : Keeps name m memory l) (handle : Int) :
    (m.writer? handle).map (fun w => (w.key, w.content)) = l.files handle := by
  have hsees := h.files handle
  generalize m.writer? handle = found at hsees
  generalize l.files handle = file at hsees
  cases hsees with
  | none => rfl
  | some holds inOrder =>
      obtain ⟨-, -, hcontent⟩ := holds.size (Spool.measure_of_inOrder inOrder)
      rw [Option.map_some, holds.key_eq, hcontent]

end Keeps

/-! ## What a run comes to -/

/-- The state of a mount and its store after the events of a run, where `l` is the ledger of the
store before it. -/
structure Accounts (t : Tree) (l : Ledger) (events : List Event) (m : Mount) (memory : Memory) :
    Prop where
  /-- Each call has the outcome that the ledger says. -/
  answers : Along t (Answers t) l events
  /-- No handle was given out twice. -/
  handles : (events.filterMap Ledger.handedOut?).Nodup
  /-- The table has the files that were opened for writing and not released since, with their
  bytes. -/
  files : ∀ handle key bytes,
    (m.writer? handle).map (fun w => (w.key, w.content)) = some (key, bytes) ↔
      l.Buffers t events handle key bytes
  /-- The contents of the bucket are those of the ledger, so openings at this moment read them. -/
  stored : (memory.bucket t.bucket).contents = (l.afterAll t events).contents
  /-- The uploads are those of the open files, by their syncs and releases, and the store has
  counted them. -/
  saves : ∀ before e after key bytes, events = before ++ e :: after →
    ((l.afterAll t before).uploaded? e.1 = some (key, bytes) ↔
      ∃ handle, (e.1 = .sync handle ∨ e.1 = .release handle) ∧ l.Buffers t before handle key bytes)
  uploads : memory.count.put = l.uploads + (l.saves t events).length
  /-- The content of a key is that of the last upload to it, or the content before the run. -/
  contents : ∀ key, (memory.bucket t.bucket).contents key =
    (Ledger.latest key (l.saves t events)).or (l.contents key)
  /-- A released handle has no writer, now and later. -/
  released : ∀ before e after handle key bytes, events = before ++ e :: after →
    l.Buffers t before handle key bytes → e.1 = .release handle → m.writer? handle = none
  /-- On a handle without a writer, writes are refused, and syncs and releases upload nothing. -/
  closed : ∀ handle, m.writer? handle = none →
    (∀ data offset, (Call.perform t (.write data offset handle)).perform
      (Memory.backend t.bucket) m memory = (some (.error (.errno .badHandle), m), memory)) ∧
    (Call.perform t (.sync handle)).perform (Memory.backend t.bucket) m memory =
      (some (.ok .done, m), memory) ∧
    (Call.perform t (.release handle)).perform (Memory.backend t.bucket) m memory =
      (some (.ok .done, m), memory)

/-- A mount that the ledger of its events accounts for satisfies `Accounts`. -/
theorem Keeps.accounts (h : Keeps t.bucket m memory (l.afterAll t events))
    (hanswers : Along t (Answers t) l events) (hproper : l.IsProper)
    (hnew : ∀ handle, l.files handle = none) : Accounts t l events m memory := by
  have hfiles : ∀ before after handle key bytes, events = before ++ after →
      ((l.afterAll t before).files handle = some (key, bytes) ↔
        l.Buffers t before handle key bytes) := by
    -- no file was open before the first event, so each was opened on the way
    rintro before after handle key bytes rfl
    rw [Ledger.files_afterAll_iff hproper (Ledger.along_append.1 hanswers).1, hnew]
    simp
  refine {
    answers := hanswers
    handles := (Ledger.handedOut_increasing hanswers).1.imp Nat.ne_of_lt
    files := fun handle key bytes => ?_
    stored := h.contents_eq
    saves := fun before e after key bytes hsplit => ?_
    uploads := ?_
    contents := fun key => ?_
    released := ?_
    closed := fun handle hnone => ?_ }
  · rw [h.view_eq handle]
    exact hfiles events [] handle key bytes (List.append_nil _).symm
  · have hbefore := fun handle => hfiles before (e :: after) handle key bytes hsplit
    obtain ⟨call, outcome⟩ := e
    cases call with
    | sync handle => simp [Ledger.uploaded?, hbefore]
    | release handle => simp [Ledger.uploaded?, hbefore]
    | _ => simp [Ledger.uploaded?]
  · rw [h.uploads_eq, Ledger.uploads_afterAll]
  · rw [h.contents_eq, Ledger.contents_afterAll]
  · rintro before e after handle key bytes rfl hbuffers hrelease
    have hfile := (hfiles before (e :: after) handle key bytes rfl).2 hbuffers
    rw [← Option.map_eq_none_iff, h.view_eq handle, Ledger.afterAll_append]
    exact Ledger.files_afterAll_of_release (hproper.afterAll t before)
      (hfile ▸ Option.some_ne_none _) hrelease (Ledger.along_append.1 hanswers).2
  · exact ⟨fun data offset => perform_return (perform_write_of_none hnone data offset),
      perform_return (perform_sync_of_none hnone), perform_return (perform_release_of_none hnone)⟩

/-- Every run of calls ends, and its calls are served as long as what they reach fits into memory
and the clock shows a valid time. If they are served, `Accounts` holds at each moment of the run for
the events so far. -/
theorem serveAll_accounts (t : Tree) (calls : List Call) (memory : Memory)
    (hfit : (Ledger.ofMemory t.bucket memory).ContentsFit) :
    ∃ events m memory', serveAll t calls .fresh memory = (some (events, m), memory') ∧
      events.map Prod.fst = calls ∧
      (Along t (fun l e => l.IsLegal e.1) (.ofMemory t.bucket memory) events →
        (Along t (fun l e => l.Fits e.1) (.ofMemory t.bucket memory) events →
          Along t IsServed (.ofMemory t.bucket memory) events) ∧
        (Along t IsServed (.ofMemory t.bucket memory) events →
          ∀ before after, events = before ++ after → ∃ m₁ memory₁,
            serveAll t (before.map Prod.fst) .fresh memory = (some (before, m₁), memory₁) ∧
            Accounts t (.ofMemory t.bucket memory) before m₁ memory₁)) := by
  have hkeeps := keeps_fresh hfit
  have hnew : ∀ handle, (Ledger.ofMemory t.bucket memory).files handle = none := fun _ => rfl
  obtain ⟨events, m, memory', hrun, hcalls⟩ := exists_serveAll t calls .fresh memory
  refine ⟨events, m, memory', hrun, hcalls, fun hlegal => ⟨fun hfits => ?_, fun hserved => ?_⟩⟩
  · -- without open files all of them fit
    have hempty : (Ledger.ofMemory t.bucket memory).FilesFit := fun _ _ _ hfile => nomatch hfile
    exact hkeeps.isServed_of_fits hempty hlegal hfits hrun
  · -- the moment after some events is the end of a run of their calls
    rintro before after rfl
    obtain ⟨m₁, memory₁, hbefore⟩ := serveAll_of_append hrun
    obtain ⟨hanswers, hkept⟩ := hkeeps.serveAll (Ledger.along_append.1 hlegal).1
      (Ledger.along_append.1 hserved).1 hbefore
    exact ⟨m₁, memory₁, hbefore, hkept.accounts hanswers hkeeps.proper hnew⟩

/-- Two writers on one path. The first one is released twice, and is written to afterwards. -/
def twoWriters : List Event :=
  [(.create "/a" (.int 0), .ok (.handle 1)), (.openFile "/a" 1, .ok (.handle 2)),
    (.write [1, 2] 0 1, .ok (.count 2)), (.write [9] 2 2, .ok (.count 1)),
    (.truncate "/a" 1 1, .ok .done), (.release 1, .ok .done), (.release 1, .ok .done),
    (.write [5] 0 1, .error (.errno .badHandle)), (.sync 2, .ok .done)]

theorem serveAll_twoWriters :
    (serveAll ⟨"b", .default, true, 1, 1⟩ (twoWriters.map Prod.fst) .fresh (.empty ⟨0, 1⟩)).1.map
      Prod.fst = some twoWriters := by
  -- the run is evaluated on the calls themselves, not on a map that has yet to give them
  unfold twoWriters
  simp only [List.map_cons, List.map_nil]
  rfl

/-- Each of two writers on one path uploads its own bytes, and the later upload determines the
object. -/
theorem serveAll_accounts_twoWriters :
    let t : Tree := ⟨"b", .default, true, 1, 1⟩
    let memory : Memory := .empty ⟨0, 1⟩
    (Ledger.ofMemory t.bucket memory).ContentsFit ∧
      ∃ m memory', serveAll t (twoWriters.map Prod.fst) .fresh memory =
          (some (twoWriters, m), memory') ∧
        Accounts t (.ofMemory t.bucket memory) twoWriters m memory' ∧
        (memory'.bucket "b").contents "a" = some [0, 0, 9] ∧ memory'.count.put = 2 := by
  intro t memory
  have hfit : (Ledger.ofMemory t.bucket memory).ContentsFit := fun _ _ hstored => nomatch hstored
  obtain ⟨events, m, memory', hrun, -, htells⟩ :=
    serveAll_accounts t (twoWriters.map Prod.fst) memory hfit
  have hevents := serveAll_twoWriters
  rw [hrun] at hevents
  obtain rfl : events = twoWriters := Option.some.inj hevents
  have hlegal : Along t (fun l e => l.IsLegal e.1) (.ofMemory t.bucket memory) twoWriters := by
    decide +kernel
  have hfits : Along t (fun l e => l.Fits e.1) (.ofMemory t.bucket memory) twoWriters := by
    decide +kernel
  obtain ⟨hserved, hmoments⟩ := htells hlegal
  obtain ⟨m₁, memory₁, hrun₁, haccounts⟩ :=
    hmoments (hserved hfits) twoWriters [] (List.append_nil _).symm
  refine ⟨hfit, m₁, memory₁, hrun₁, haccounts, ?_, ?_⟩
  · rw [haccounts.contents "a"]
    decide +kernel
  · rw [haccounts.uploads]
    decide +kernel

end BucketTree.Mount
