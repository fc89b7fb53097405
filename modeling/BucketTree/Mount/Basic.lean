import BucketTree.Mount.Errno
import BucketTree.Tree.Access

/-!
# Mounts

A mount serves a tree to an operating system, which works with handles. A file opened for
writing has a writer in the table of the mount, under its handle; its content is uploaded when
the handle is released. Handles are integers that count up from one, so that the handles in the
table increase and stay below the next one; none is used again. `Mount.writer?` is the view of
the table, and `writer?_addWriter`, `writer?_setWriter`, `writer?_mapWriters` and
`writer?_dropHandle` say what each change does to it.

An operation of a mount is a program that changes the table and may be refused. What the
operation changed before a refusal stays changed.
-/

set_option autoImplicit false

namespace BucketTree

/-- The table of a mount. -/
structure Mount where
  /-- The handle for the next open file. -/
  next : Nat
  /-- The open writers by handle, the oldest first. -/
  writers : List (Int × Writer)
  /-- Every handle in the table is less than the next one. -/
  below : ∀ e ∈ writers, e.1 < next
  /-- The handles increase. -/
  increasing : writers.Pairwise fun a b => a.1 < b.1

/-- An operation of a mount. -/
abbrev MountAction := Recorded Refusal Mount

namespace Mount

variable {α : Type}

/-! ## The table -/

/-- A mount without open files. -/
def fresh : Mount := ⟨1, [], fun _ h => absurd h List.not_mem_nil, .nil⟩

/-- The writer under a handle, among writers by handle. -/
def findWriter (handle : Int) (writers : List (Int × Writer)) : Option Writer :=
  (writers.find? fun e => e.1 == handle).map (·.2)

/-- An entry of the table with the writer replaced if it is under the handle. -/
def renewEntry (handle : Int) (w : Writer) (e : Int × Writer) : Int × Writer :=
  if e.1 = handle then (handle, w) else e

/-- The writer under a handle. -/
def writer? (m : Mount) (handle : Int) : Option Writer := findWriter handle m.writers

/-- The oldest open writer for a key, with its handle. -/
def writerFor? (m : Mount) (key : Key) : Option (Int × Writer) :=
  m.writers.find? fun e => e.2.key == key

theorem fst_renewEntry (handle : Int) (w : Writer) (e : Int × Writer) :
    (renewEntry handle w e).1 = e.1 := by
  unfold renewEntry
  split
  · next h => exact h.symm
  · rfl

/-- The table with the writer under a handle replaced. -/
def setWriter (handle : Int) (w : Writer) (m : Mount) : Mount where
  next := m.next
  writers := m.writers.map (renewEntry handle w)
  below := by
    intro e he
    obtain ⟨old, hold, rfl⟩ := List.mem_map.1 he
    rw [fst_renewEntry]
    exact m.below old hold
  increasing := by
    refine List.pairwise_map.2 (m.increasing.imp fun h => ?_)
    rw [fst_renewEntry, fst_renewEntry]
    exact h

/-- The table with every writer changed. -/
def mapWriters (f : Writer → Writer) (m : Mount) : Mount where
  next := m.next
  writers := m.writers.map fun e => (e.1, f e.2)
  below := by
    intro e he
    obtain ⟨old, hold, rfl⟩ := List.mem_map.1 he
    exact m.below old hold
  increasing := List.pairwise_map.2 m.increasing

/-- The table without a handle. -/
def dropHandle (handle : Int) (m : Mount) : Mount where
  next := m.next
  writers := m.writers.filter fun e => e.1 != handle
  below := fun e he => m.below e (List.mem_filter.1 he).1
  increasing := m.increasing.filter _

/-- The table without any writer. -/
def dropAll (m : Mount) : Mount := ⟨m.next, [], fun _ h => absurd h List.not_mem_nil, .nil⟩

/-- The table with a handle given out for reading. -/
def skipHandle (m : Mount) : Mount where
  next := m.next + 1
  writers := m.writers
  below := fun e he => by have := m.below e he; omega
  increasing := m.increasing

/-- The table with a handle given out, and a writer under it. -/
def addWriter (w : Writer) (m : Mount) : Mount where
  next := m.next + 1
  writers := m.writers ++ [((m.next : Int), w)]
  below := by
    intro e he
    rcases List.mem_append.1 he with he | he
    · have := m.below e he
      omega
    · rw [List.mem_singleton.1 he]
      simp only
      omega
  increasing := by
    refine List.pairwise_append.2 ⟨m.increasing, List.pairwise_singleton _ _, fun a ha b hb => ?_⟩
    rw [List.mem_singleton.1 hb]
    exact m.below a ha

theorem findWriter_filter (dropped handle : Int) (writers : List (Int × Writer)) :
    findWriter handle (writers.filter fun e => e.1 != dropped) =
      if dropped = handle then none else findWriter handle writers := by
  unfold findWriter
  induction writers with
  | nil => simp
  | cons e rest ih =>
      obtain ⟨h, w⟩ := e
      by_cases hd : h = dropped
      · by_cases hh : dropped = handle <;> simp_all
      · by_cases hh : h = handle
        · subst hh
          simp [hd, Ne.symm hd]
        · simp_all

theorem findWriter_map_renewEntry (changed handle : Int) (w : Writer)
    (writers : List (Int × Writer)) :
    findWriter handle (writers.map (renewEntry changed w)) =
      if changed = handle then (findWriter handle writers).map fun _ => w
      else findWriter handle writers := by
  unfold findWriter
  induction writers with
  | nil => simp
  | cons e rest ih =>
      obtain ⟨h, old⟩ := e
      by_cases hc : h = changed
      · by_cases hh : changed = handle <;> simp_all [renewEntry]
      · by_cases hh : h = handle
        · subst hh
          simp [renewEntry, hc, Ne.symm hc]
        · simp_all [renewEntry]

/-- A dropped handle has no writer, and the other handles keep theirs. -/
theorem writer?_dropHandle (m : Mount) (dropped handle : Int) :
    (m.dropHandle dropped).writer? handle =
      if dropped = handle then none else m.writer? handle :=
  findWriter_filter dropped handle m.writers

/-- A replaced writer is found at its handle if one was there. The other handles keep their
writers. -/
theorem writer?_setWriter (m : Mount) (changed handle : Int) (w : Writer) :
    (m.setWriter changed w).writer? handle =
      if changed = handle then (m.writer? handle).map fun _ => w else m.writer? handle :=
  findWriter_map_renewEntry changed handle w m.writers

/-- A change of every writer changes the writer at every handle. -/
theorem writer?_mapWriters (m : Mount) (f : Writer → Writer) (handle : Int) :
    (m.mapWriters f).writer? handle = (m.writer? handle).map f := by
  unfold writer? findWriter mapWriters
  simp only [List.find?_map, Option.map_map]
  rfl

/-- The next handle has no writer. -/
theorem writer?_next (m : Mount) : m.writer? m.next = none := by
  unfold writer? findWriter
  rw [Option.map_eq_none_iff, List.find?_eq_none]
  intro e he heq
  have := m.below e he
  have : e.1 = m.next := eq_of_beq heq
  omega

/-- A new writer is found at the new handle. The other handles keep their writers. -/
theorem writer?_addWriter (m : Mount) (w : Writer) (handle : Int) :
    (m.addWriter w).writer? handle =
      if handle = m.next then some w else m.writer? handle := by
  have hnext := m.writer?_next
  unfold writer? findWriter at *
  simp only [addWriter, List.find?_append]
  by_cases hh : handle = m.next
  · subst hh
    rw [Option.map_eq_none_iff] at hnext
    simp [hnext]
  · simp [hh, Ne.symm hh]

/-! ## Steps of an operation -/

/-- Ends with an error number. -/
def refuse (e : Errno) : MountAction α := throw (.errno e)

/-- A program that keeps the table. -/
def lift (p : Program α) : MountAction α := ExceptT.lift (StateT.lift p)

/-- An action on the tree with failures reported as error numbers. -/
def reported (a : Action α) : MountAction α := do
  match ← lift a.run with
  | .ok result => return result
  | .error fault => if fault.isFailure then refuse (.ofFault fault) else throw (.fault fault)

/-- The result of an operation on a writer. A misuse is passed on. -/
def passed (r : Except Misuse α) : MountAction α :=
  match r with
  | .ok result => return result
  | .error misuse => throw (.fault (.misuse misuse))

/-- Assigns a handle for reading. -/
def handOut : MountAction Nat := do
  let m ← get
  set m.skipHandle
  return m.next

/-- Assigns a handle to a writer. -/
def register (w : Writer) : MountAction Nat := do
  let m ← get
  set (m.addWriter w)
  return m.next

/-- The writer for an operation on a path and a handle: the one at the handle if a handle other than
zero is given, and otherwise the oldest one for the key of the path. -/
def addressed (path : Value) (handle : Option Int) : MountAction (Option (Int × Writer)) := do
  let m ← get
  match handle with
  | some h =>
      if h != 0 then return (m.writer? h).map (h, ·)
  | none => pure ()
  match Path.toKey path "" with
  | .error refusal => throw (.fault (.known (.ofRefusal refusal)))
  | .ok key => return m.writerFor? key

end Mount

end BucketTree
