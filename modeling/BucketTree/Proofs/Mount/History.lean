import BucketTree.Proofs.Mount.Ledger

/-!
# The history of a ledger

The events of a run determine which handles are open for writing and the bytes under each of them
(`Ledger.files_afterAll_iff`), as well as the uploads. The last upload to a key is the content of
the key (`Ledger.contents_afterAll`). Handles are given out in increasing order, so a released
handle is never open again (`Ledger.files_afterAll_of_release`).
-/

set_option autoImplicit false

namespace BucketTree.Mount.Ledger

/-! ## Events in turn -/

/-- The ledger after a list of events. -/
def afterAll (t : Tree) (l : Ledger) (events : List Event) : Ledger := events.foldl (after t) l

/-- The predicate `p` holds of each event and the ledger before it. -/
def Along (t : Tree) (p : Ledger → Event → Prop) : Ledger → List Event → Prop
  | _, [] => True
  | l, e :: rest => p l e ∧ Along t p (l.after t e) rest

instance decidableAlong {t : Tree} {p : Ledger → Event → Prop} [∀ l, DecidablePred (p l)] :
    ∀ (l : Ledger) (events : List Event), Decidable (Along t p l events)
  | _, [] => isTrue trivial
  | l, e :: rest =>
      have := decidableAlong (t := t) (p := p) (l.after t e) rest
      inferInstanceAs (Decidable (p l e ∧ Along t p (l.after t e) rest))

/-- The bytes under a handle after a list of events. -/
def bufferAfter (handle : Int) (events : List Event) (bytes : Bytes) : Bytes :=
  events.foldl (fun bytes e => e.1.onBuffer handle bytes) bytes

/-- One of the events opens a file for writing under the handle, no later event releases it, and the
bytes are those of the opening with the later calls on the handle applied. -/
def Buffers (t : Tree) (l : Ledger) (events : List Event) (handle : Int) (key : Key)
    (bytes : Bytes) : Prop :=
  ∃ before e after opening, events = before ++ e :: after ∧
    Opens t (l.afterAll t before) e handle key opening ∧
    (∀ e ∈ after, e.1 ≠ .release handle) ∧ bytes = bufferAfter handle after opening

/-- The uploads of a list of events, in order. -/
def saves (t : Tree) : Ledger → List Event → List (Key × Bytes)
  | _, [] => []
  | l, e :: rest => (l.uploaded? e.1).toList ++ saves t (l.after t e) rest

variable {t : Tree} {l : Ledger} {e : Event} {events : List Event} {handle : Int} {key : Key}
variable {bytes : Bytes}

theorem along_append {p : Ledger → Event → Prop} {before after : List Event} :
    Along t p l (before ++ after) ↔
      Along t p l before ∧ Along t p (l.afterAll t before) after := by
  induction before generalizing l with
  | nil => exact (and_iff_right trivial).symm
  | cons e rest ih => exact (and_congr_right fun _ => ih).trans and_assoc.symm

theorem afterAll_append (t : Tree) (l : Ledger) (before after : List Event) :
    l.afterAll t (before ++ after) = (l.afterAll t before).afterAll t after :=
  List.foldl_append

theorem IsProper.afterAll (h : l.IsProper) (t : Tree) (events : List Event) :
    (l.afterAll t events).IsProper := by
  induction events generalizing l with
  | nil => exact h
  | cons e rest ih => exact ih (h.after t e)

/-! ## Files -/

theorem buffers_cons :
    Buffers t l (e :: events) handle key bytes ↔
      (∃ opening, Opens t l e handle key opening ∧ (∀ e ∈ events, e.1 ≠ .release handle) ∧
        bytes = bufferAfter handle events opening) ∨
      Buffers t (l.after t e) events handle key bytes := by
  constructor
  · rintro ⟨before, e', after, opening, hsplit, hopens, hheld, hbytes⟩
    cases before with
    | nil =>
        obtain ⟨rfl, rfl⟩ := List.cons.inj hsplit
        exact Or.inl ⟨opening, hopens, hheld, hbytes⟩
    | cons first before =>
        obtain ⟨rfl, rfl⟩ := List.cons.inj hsplit
        exact Or.inr ⟨before, e', after, opening, rfl, hopens, hheld, hbytes⟩
  · rintro (⟨opening, hopens, hheld, hbytes⟩ |
      ⟨before, e', after, opening, rfl, hopens, hheld, hbytes⟩)
    · exact ⟨[], e, events, opening, rfl, hopens, hheld, hbytes⟩
    · exact ⟨e :: before, e', after, opening, rfl, hopens, hheld, hbytes⟩

/-- The open files after a list of events: those open before and those opened by the events, unless
they were released later. -/
theorem files_afterAll_iff (h : l.IsProper) (hanswers : Along t (Answers t) l events) :
    (l.afterAll t events).files handle = some (key, bytes) ↔
      (∃ old, l.files handle = some (key, old) ∧ (∀ e ∈ events, e.1 ≠ .release handle) ∧
        bytes = bufferAfter handle events old) ∨ Buffers t l events handle key bytes := by
  -- a file is traced back through the later events first, and then through the first one
  induction events generalizing l with
  | nil =>
      have hnone : ¬ Buffers t l [] handle key bytes := by
        rintro ⟨before, e, after, opening, hsplit, -⟩
        cases before <;> cases hsplit
      simp [afterAll, bufferAfter, hnone]
  | cons e rest ih =>
      obtain ⟨hanswer, hrest⟩ := hanswers
      rw [buffers_cons]
      refine (ih (h.after t e) hrest).trans ?_
      simp only [files_after_iff h hanswer, List.forall_mem_cons]
      constructor
      · rintro (⟨_, ⟨old, hold, hfirst, rfl⟩ | hopens, hheld, rfl⟩ | hbuffers)
        · exact Or.inl ⟨old, hold, ⟨hfirst, hheld⟩, rfl⟩
        · exact Or.inr (Or.inl ⟨_, hopens, hheld, rfl⟩)
        · exact Or.inr (Or.inr hbuffers)
      · rintro (⟨old, hold, ⟨hfirst, hheld⟩, rfl⟩ | ⟨opening, hopens, hheld, rfl⟩ | hbuffers)
        · exact Or.inl ⟨_, Or.inl ⟨old, hold, hfirst, rfl⟩, hheld, rfl⟩
        · exact Or.inl ⟨opening, Or.inr hopens, hheld, rfl⟩
        · exact Or.inr hbuffers

/-! ## Handles -/

/-- Handles are given out in increasing order. -/
theorem handedOut_increasing (hanswers : Along t (Answers t) l events) :
    (events.filterMap handedOut?).Pairwise (· < ·) ∧
      ∀ n ∈ events.filterMap handedOut?, l.next ≤ n := by
  induction events generalizing l with
  | nil => exact ⟨.nil, fun n hn => absurd hn List.not_mem_nil⟩
  | cons e rest ih =>
      obtain ⟨hanswer, hrest⟩ := hanswers
      obtain ⟨hpairwise, hbounds⟩ := ih hrest
      obtain ⟨hhanded, hnext⟩ | ⟨hhanded, hnext⟩ := next_after hanswer
      · rw [hnext] at hbounds
        rw [List.filterMap_cons_some hhanded]
        refine ⟨List.pairwise_cons.2 ⟨hbounds, hpairwise⟩, ?_⟩
        exact List.forall_mem_cons.2 ⟨Nat.le_refl _, fun n hn => Nat.le_of_succ_le (hbounds n hn)⟩
      · rw [hnext] at hbounds
        rw [List.filterMap_cons_none hhanded]
        exact ⟨hpairwise, hbounds⟩

/-- A handle that was given out and is not open is not open later. -/
theorem files_afterAll_of_none (h : l.IsProper) (hanswers : Along t (Answers t) l events)
    (hpast : handle < l.next) (hnone : l.files handle = none) :
    (l.afterAll t events).files handle = none := by
  rw [Option.eq_none_iff_forall_ne_some]
  rintro ⟨key, bytes⟩ hfile
  obtain ⟨old, hold, -⟩ | ⟨before, e, after, opening, rfl, ⟨-, n, hn, rfl⟩, -⟩ :=
    (files_afterAll_iff h hanswers).1 hfile
  · rw [hnone] at hold
    cases hold
  · -- only handles from the next one on are given out, and this one is past
    have hbound := (handedOut_increasing hanswers).2 n (List.mem_filterMap.2 ⟨e, by simp, hn⟩)
    omega

/-- A released handle is not open later. -/
theorem files_afterAll_of_release (h : l.IsProper) (hopen : l.files handle ≠ none)
    (hrelease : e.1 = .release handle) (hanswers : Along t (Answers t) l (e :: events)) :
    (l.afterAll t (e :: events)).files handle = none := by
  obtain ⟨call, outcome⟩ := e
  obtain rfl : call = .release handle := hrelease
  have hpast : handle < (l.after t (.release handle, outcome)).next := by
    show handle < (l.upload (l.files handle)).next
    rw [upload_next]
    exact (h.bounds handle hopen).2
  show ((l.after t (.release handle, outcome)).afterAll t events).files handle = none
  exact files_afterAll_of_none (h.after t _) hanswers.2 hpast (Function.update_self ..)

/-! ## Keys -/

/-- The content of a key is that of the last upload to it, or the content before all events. -/
theorem contents_afterAll (t : Tree) (l : Ledger) (events : List Event) (key : Key) :
    (l.afterAll t events).contents key =
      (latest key (l.saves t events)).or (l.contents key) := by
  induction events generalizing l with
  | nil => rfl
  | cons e rest ih =>
      refine (ih (l.after t e)).trans ?_
      rw [contents_after]
      show _ = (latest key ((l.uploaded? e.1).toList ++ saves t (l.after t e) rest)).or _
      rw [latest_append, Option.or_assoc]

theorem uploads_afterAll (t : Tree) (l : Ledger) (events : List Event) :
    (l.afterAll t events).uploads = l.uploads + (l.saves t events).length := by
  induction events generalizing l with
  | nil => rfl
  | cons e rest ih =>
      refine (ih (l.after t e)).trans ?_
      rw [uploads_after]
      show _ = _ + ((l.uploaded? e.1).toList ++ saves t (l.after t e) rest).length
      rw [List.length_append, Nat.add_assoc]

end BucketTree.Mount.Ledger
