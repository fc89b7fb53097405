import BucketTree.Content.Stream

/-!
# Buckets

A bucket holds objects at keys, in increasing order of the keys. The order is part of the type. The
other operations are described through `Bucket.find?`, which gives the object at a key, after an
insertion (`find?_insert`) and after an erasure (`find?_erase`).
-/

set_option autoImplicit false

namespace BucketTree

/-- An object: its content and the time it was stored, in microseconds since 1970. -/
structure StoredObject where
  content : Bytes
  modified : Int
  /-- The block of memory that the content lies in. -/
  block : BlockNumber
deriving DecidableEq, Repr

namespace StoredObject

/-- The content of the object as a body. -/
def body (object : StoredObject) : Body := ⟨object.content, some object.block⟩

/-- Tells whether two objects have the same content and time. -/
def looksLike (a b : StoredObject) : Bool := a.content == b.content && a.modified == b.modified

end StoredObject

/-- Objects under keys, in increasing order of the keys. -/
structure Bucket where
  entries : List (Key × StoredObject)
  increasing : entries.Pairwise fun a b => a.1 < b.1

namespace Bucket

/-- The bucket without objects. -/
def empty : Bucket := ⟨[], .nil⟩

instance : Inhabited Bucket := ⟨empty⟩

/-- The keys in increasing order. -/
def keys (b : Bucket) : List Key := b.entries.map (·.1)

/-- The entry for a key, if there is one. -/
def findEntry (key : Key) : List (Key × StoredObject) → Option StoredObject
  | [] => none
  | (k, object) :: rest => if k = key then some object else findEntry key rest

/-- The object under a key. -/
def find? (key : Key) (b : Bucket) : Option StoredObject := findEntry key b.entries

/-- The entries with an object inserted at its place, replacing the one at the same key. -/
def insertEntry (key : Key) (object : StoredObject) :
    List (Key × StoredObject) → List (Key × StoredObject)
  | [] => [(key, object)]
  | (k, old) :: rest =>
      if key < k then (key, object) :: (k, old) :: rest
      else if k = key then (key, object) :: rest
      else (k, old) :: insertEntry key object rest

/-- An entry after an insertion is the new one or an old one. -/
theorem mem_insertEntry {key : Key} {object : StoredObject}
    {entries : List (Key × StoredObject)} {e : Key × StoredObject}
    (h : e ∈ insertEntry key object entries) : e = (key, object) ∨ e ∈ entries := by
  induction entries with
  | nil => exact Or.inl (List.mem_singleton.1 h)
  | cons head rest ih =>
      obtain ⟨k, old⟩ := head
      unfold insertEntry at h
      split at h
      · rcases List.mem_cons.1 h with rfl | h
        · exact Or.inl rfl
        · exact Or.inr h
      · split at h
        · rcases List.mem_cons.1 h with rfl | h
          · exact Or.inl rfl
          · exact Or.inr (List.mem_cons_of_mem _ h)
        · rcases List.mem_cons.1 h with rfl | h
          · exact Or.inr List.mem_cons_self
          · exact (ih h).imp id (List.mem_cons_of_mem _)

/-- An insertion keeps the order. -/
theorem increasing_insertEntry (key : Key) (object : StoredObject)
    {entries : List (Key × StoredObject)} (h : entries.Pairwise fun a b => a.1 < b.1) :
    (insertEntry key object entries).Pairwise fun a b => a.1 < b.1 := by
  induction entries with
  | nil => exact List.pairwise_singleton _ _
  | cons head rest ih =>
      obtain ⟨k, old⟩ := head
      obtain ⟨hhead, hrest⟩ := List.pairwise_cons.1 h
      unfold insertEntry
      split
      next hlt =>
        refine List.pairwise_cons.2 ⟨fun e he => ?_, h⟩
        rcases List.mem_cons.1 he with rfl | he
        · exact hlt
        · exact String.lt_trans hlt (hhead e he)
      next hnlt =>
        split
        next heq =>
          subst heq
          exact List.pairwise_cons.2 ⟨hhead, hrest⟩
        next hne =>
          refine List.pairwise_cons.2 ⟨fun e he => ?_, ih hrest⟩
          rcases mem_insertEntry he with rfl | he
          · rcases Std.lt_trichotomy (a := k) (b := key) with hlt | heq | hgt
            · exact hlt
            · exact absurd heq hne
            · exact absurd hgt hnlt
          · exact hhead e he

/-- The bucket with an object at a key, replacing the one there. -/
def insert (key : Key) (object : StoredObject) (b : Bucket) : Bucket :=
  ⟨insertEntry key object b.entries, increasing_insertEntry key object b.increasing⟩

/-- The bucket without the object at a key. -/
def erase (key : Key) (b : Bucket) : Bucket :=
  ⟨b.entries.filter fun e => e.1 != key, b.increasing.filter _⟩

/-- Tells whether an object in the bucket lies in the given block of memory. -/
def holds (block : BlockNumber) (b : Bucket) : Bool :=
  b.entries.any fun e => e.2.block == block

/-- The keys that start with a text, in increasing order. -/
def keysUnder (under : String) (b : Bucket) : List Key :=
  b.keys.filter fun key => Text.beginsWith key under

theorem findEntry_insertEntry_self (key : Key) (object : StoredObject)
    (entries : List (Key × StoredObject)) :
    findEntry key (insertEntry key object entries) = some object := by
  induction entries with
  | nil => simp [insertEntry, findEntry]
  | cons head rest ih =>
      obtain ⟨k, old⟩ := head
      unfold insertEntry
      split
      · simp [findEntry]
      · split
        · simp [findEntry]
        · next hne => simp [findEntry, hne, ih]

theorem findEntry_insertEntry_of_ne {key other : Key} (h : key ≠ other) (object : StoredObject)
    (entries : List (Key × StoredObject)) :
    findEntry other (insertEntry key object entries) = findEntry other entries := by
  induction entries with
  | nil => simp [insertEntry, findEntry, h]
  | cons head rest ih =>
      obtain ⟨k, old⟩ := head
      unfold insertEntry
      split
      · simp [findEntry, h]
      · split
        next heq =>
          subst heq
          simp [findEntry, h]
        next hne => simp only [findEntry, ih]

/-- An insertion sets the object at its key and keeps the objects at the other keys. -/
theorem find?_insert (key other : Key) (object : StoredObject) (b : Bucket) :
    (b.insert key object).find? other = if key = other then some object else b.find? other := by
  split
  next h => subst h; exact findEntry_insertEntry_self key object b.entries
  next h => exact findEntry_insertEntry_of_ne h object b.entries

theorem findEntry_filter (key other : Key) (entries : List (Key × StoredObject)) :
    findEntry other (entries.filter fun e => e.1 != key) =
      if key = other then none else findEntry other entries := by
  induction entries with
  | nil => simp [findEntry]
  | cons head rest ih =>
      obtain ⟨k, old⟩ := head
      by_cases hk : k = key
      · subst hk
        by_cases ho : k = other
        · simp [ho] at ih ⊢
          exact ih
        · simp [ho, findEntry] at ih ⊢
          exact ih
      · by_cases ho : k = other
        · subst ho
          simp [hk, findEntry, Ne.symm hk]
        · simp [hk, ho, findEntry, ih]

/-- An erasure removes the object at its key and keeps the objects at the other keys. -/
theorem find?_erase (key other : Key) (b : Bucket) :
    (b.erase key).find? other = if key = other then none else b.find? other :=
  findEntry_filter key other b.entries

end Bucket

end BucketTree
