import BucketTree.Proofs.Key.Directory

/-!
# Well-formed keys

A key is *plain* when each of its parts is a segment that a path may have: it is not empty, has no
NUL character, is not `.` or `..`, and does not end with the marker suffix. A key is well formed
when it is plain or the marker of a plain key. A suffix without separators lies within the last
segment, so a plain key is never a marker, and a key below a directory is well formed exactly when
the directory is plain and the rest of the key is well formed.
-/

set_option autoImplicit false

namespace BucketTree.Key

/-! ## Parts -/

/-- The parts of a key between its separators, including empty ones. -/
def parts (key : Key) : List String := (key.toList.splitOn separator).map String.ofList

@[simp]
theorem parts_append (a b : String) : parts (a ++ "/" ++ b) = parts a ++ parts b := by
  have hlist : (a ++ "/" ++ b).toList = a.toList ++ separator :: b.toList := by
    rw [String.append_assoc, String.toList_append, String.toList_append]
    rfl
  unfold parts
  rw [hlist, List.splitOn_append_cons_self, List.map_append]

theorem parts_ne_nil (key : Key) : parts key ≠ [] := fun h =>
  List.splitOn_ne_nil _ _ (List.map_eq_nil_iff.1 h)

/-- A key without separators is its only part. -/
theorem parts_of_not_mem {key : Key} (h : separator ∉ key.toList) : parts key = [key] := by
  unfold parts
  rw [List.splitOn_eq_singleton h, List.map_singleton, String.ofList_toList]

/-- A key has no separators, or it splits at the first of them. -/
theorem exists_first (key : Key) : separator ∉ key.toList ∨
    ∃ name rest, key = name ++ "/" ++ rest ∧ separator ∉ name.toList := by
  by_cases hmem : separator ∈ key.toList
  · obtain ⟨head, tail, hlist, hhead⟩ := List.eq_append_cons_of_mem hmem
    refine Or.inr ⟨String.ofList head, String.ofList tail, ?_, ?_⟩
    · rw [← String.toList_inj, hlist]
      simp [separator]
    · rwa [String.toList_ofList]
  · exact Or.inl hmem

/-- The part before the first separator is determined by the key. -/
theorem first_eq {name other rest tail : String} (hname : separator ∉ name.toList)
    (hother : separator ∉ other.toList) (h : name ++ "/" ++ rest = other ++ "/" ++ tail) :
    name = other := by
  have hparts := congrArg parts h
  rw [parts_append, parts_append, parts_of_not_mem hname, parts_of_not_mem hother] at hparts
  exact (List.cons.inj hparts).1

/-- A key has no separators, or it splits at the last of them. -/
theorem exists_last (key : Key) : separator ∉ key.toList ∨
    ∃ parent name, key = parent ++ "/" ++ name ∧ separator ∉ name.toList := by
  by_cases hmem : separator ∈ key.toList
  · obtain ⟨tail, head, hlist, htail⟩ :=
      List.eq_append_cons_of_mem (List.mem_reverse.2 hmem)
    refine Or.inr ⟨String.ofList head.reverse, String.ofList tail.reverse, ?_, ?_⟩
    · rw [← String.toList_inj, ← List.reverse_reverse key.toList, hlist]
      simp [separator]
    · simpa using htail
  · exact Or.inl hmem

/-- The parts of a joined key are the names that were joined. -/
theorem parts_intercalate {names : List String} (hne : names ≠ [])
    (hnames : ∀ name ∈ names, separator ∉ name.toList) :
    parts (separatorText.intercalate names) = names := by
  unfold parts
  rw [String.toList_intercalate]
  show (List.splitOn separator ([separator].intercalate (names.map String.toList))).map _ = names
  rw [List.splitOn_intercalate, List.map_map]
  · exact (List.map_congr_left fun name _ => String.ofList_toList).trans (List.map_id names)
  · intro l hl
    obtain ⟨name, hname, rfl⟩ := List.mem_map.1 hl
    exact hnames name hname
  · exact fun hnil => hne (List.map_eq_nil_iff.1 hnil)

/-- Joining the parts of a key gives the key. -/
theorem intercalate_parts (key : Key) : separatorText.intercalate (parts key) = key := by
  unfold parts
  rw [← String.toList_inj, String.toList_intercalate, List.map_map]
  have hsame : (key.toList.splitOn separator).map (String.toList ∘ String.ofList) =
      key.toList.splitOn separator :=
    (List.map_congr_left fun l _ => String.toList_ofList).trans (List.map_id _)
  rw [hsame]
  exact List.intercalate_splitOn separator

/-- A text ends with a separator when that is its last character. -/
theorem endsWith_separator {text : String} :
    Text.endsWith text separatorText = true ↔ text.toList.getLast? = some separator := by
  have hsingle : separatorText = String.singleton separator := rfl
  rw [hsingle, Text.endsWith_singleton]

/-- A name without empty parts is not empty. -/
theorem ne_empty_of_parts {name : String} (h : ∀ part ∈ parts name, part ≠ "") : name ≠ "" := by
  rintro rfl
  exact h "" List.mem_cons_self rfl

/-- A name without empty parts does not start with a separator. -/
theorem head?_ne_separator {name : String} (h : ∀ part ∈ parts name, part ≠ "") :
    name.toList.head? ≠ some separator := by
  have hroot : parts root = [""] := parts_of_not_mem List.not_mem_nil
  intro hhead
  obtain ⟨rest, hrest⟩ := List.head?_eq_some_iff.1 hhead
  have hname : name = root ++ "/" ++ String.ofList rest := by
    rw [← String.toList_inj, hrest]
    simp [root, separator]
  -- there would be an empty part before the separator
  refine h "" ?_ rfl
  rw [hname, parts_append, hroot]
  exact List.mem_cons_self

/-- A name without empty parts does not end with a separator. -/
theorem getLast?_ne_separator {name : String} (h : ∀ part ∈ parts name, part ≠ "") :
    name.toList.getLast? ≠ some separator := by
  have hroot : parts root = [""] := parts_of_not_mem List.not_mem_nil
  intro hlast
  obtain ⟨init, hinit⟩ := List.getLast?_eq_some_iff.1 hlast
  have hname : name = String.ofList init ++ "/" ++ root := by
    rw [← String.toList_inj, hinit]
    simp [root, separator]
  refine h "" ?_ rfl
  rw [hname, parts_append, hroot]
  exact List.mem_append_right _ List.mem_cons_self

/-- Trimming separators leaves a name without empty parts alone. -/
theorem trim_eq_self {name : String} (h : ∀ part ∈ parts name, part ≠ "") :
    Text.trim separator name = name := by
  rw [Text.trim_eq_trimEnd (head?_ne_separator h), Text.trimEnd_eq_self (getLast?_ne_separator h)]

/-- The key of a child whose name has no empty parts. -/
theorem join_eq {name : String} (dir : Key) (h : ∀ part ∈ parts name, part ≠ "") :
    join dir name = directoryPrefix dir ++ name := by
  unfold join
  rw [trim_eq_self h]

/-! ## Plain keys -/

/-- A segment that a path may have. -/
structure IsSegment (suffix segment : String) : Prop where
  ne_empty : segment ≠ ""
  no_nul : '\x00' ∉ segment.toList
  not_relative : Path.isRelative segment = false
  not_marker : isMarker suffix segment = false

instance (suffix segment : String) : Decidable (IsSegment suffix segment) :=
  decidable_of_iff (segment ≠ "" ∧ '\x00' ∉ segment.toList ∧ Path.isRelative segment = false ∧
      isMarker suffix segment = false)
    ⟨fun ⟨h, hn, hr, hm⟩ => ⟨h, hn, hr, hm⟩, fun ⟨h, hn, hr, hm⟩ => ⟨h, hn, hr, hm⟩⟩

/-- All parts of the key are segments that a path may have. -/
def IsPlain (suffix : String) (key : Key) : Prop := ∀ part ∈ parts key, IsSegment suffix part

instance (suffix : String) (key : Key) : Decidable (IsPlain suffix key) :=
  inferInstanceAs (Decidable (∀ part ∈ parts key, IsSegment suffix part))

variable {suffix : String} {key : Key}

@[simp]
theorem isPlain_append {a b : String} :
    IsPlain suffix (a ++ "/" ++ b) ↔ IsPlain suffix a ∧ IsPlain suffix b := by
  unfold IsPlain
  rw [parts_append, List.forall_mem_append]

theorem isPlain_of_not_mem (h : separator ∉ key.toList) :
    IsPlain suffix key ↔ IsSegment suffix key := by
  unfold IsPlain
  rw [parts_of_not_mem h, List.forall_mem_singleton]

theorem IsPlain.part_ne_empty (h : IsPlain suffix key) : ∀ part ∈ parts key, part ≠ "" :=
  fun part hpart => (h part hpart).ne_empty

theorem not_isPlain_root : ¬ IsPlain suffix root := fun h =>
  ((isPlain_of_not_mem List.not_mem_nil).1 h).ne_empty rfl

theorem IsPlain.ne_root (h : IsPlain suffix key) : key ≠ root := by
  rintro rfl
  exact not_isPlain_root h

/-! ## Markers -/

/-- A key is a marker exactly when it ends with the suffix. -/
theorem isMarker_iff : isMarker suffix key = true ↔ ∃ dir, key = dir ++ suffix := Text.endsWith_iff

/-- The directory of a marker is the key before the suffix. -/
@[simp]
theorem withoutSuffix_append (suffix : String) (dir : Key) :
    withoutSuffix suffix (dir ++ suffix) = dir := by
  unfold withoutSuffix Text.dropLast
  rw [if_pos (isMarker_iff.2 ⟨dir, rfl⟩), String.toList_append, List.length_append,
    Nat.add_sub_cancel, List.take_left, String.ofList_toList]

/-- A plain key is not a marker: the suffix would lie within its last segment. -/
theorem IsPlain.isMarker_eq_false (h : IsPlain suffix key) (hsuffix : separator ∉ suffix.toList) :
    isMarker suffix key = false := by
  have hsegment : ∀ name : String, separator ∉ name.toList → ¬ IsPlain suffix (name ++ suffix) := by
    intro name hname hplain
    have hnot : separator ∉ (name ++ suffix).toList := by
      rw [String.toList_append, List.mem_append, not_or]
      exact ⟨hname, hsuffix⟩
    have hmarker := ((isPlain_of_not_mem hnot).1 hplain).not_marker
    rw [isMarker_iff.2 ⟨name, rfl⟩] at hmarker
    cases hmarker
  refine Bool.eq_false_iff.2 fun hmarker => ?_
  obtain ⟨dir, rfl⟩ := isMarker_iff.1 hmarker
  rcases exists_last dir with hdir | ⟨parent, name, rfl, hname⟩
  · exact hsegment dir hdir h
  · rw [String.append_assoc] at h
    exact hsegment name hname (isPlain_append.1 h).2

theorem not_isPlain_append_suffix (dir : Key) (hsuffix : separator ∉ suffix.toList) :
    ¬ IsPlain suffix (dir ++ suffix) := by
  intro h
  have hmarker := h.isMarker_eq_false hsuffix
  rw [isMarker_iff.2 ⟨dir, rfl⟩] at hmarker
  cases hmarker

/-! ## Well-formed keys -/

/-- The well-formed keys: plain keys and their markers. -/
inductive IsWellFormed (suffix : String) : Key → Prop
  | plain {key : Key} (h : IsPlain suffix key) : IsWellFormed suffix key
  | marker {dir : Key} (h : IsPlain suffix dir) : IsWellFormed suffix (dir ++ suffix)

/-- A key is well formed when it is plain, or a marker whose directory is plain. -/
theorem isWellFormed_iff : IsWellFormed suffix key ↔ IsPlain suffix key ∨
    isMarker suffix key = true ∧ IsPlain suffix (withoutSuffix suffix key) := by
  constructor
  · intro h
    cases h with
    | plain h => exact Or.inl h
    | @marker dir h => exact Or.inr ⟨isMarker_iff.2 ⟨dir, rfl⟩, by rwa [withoutSuffix_append]⟩
  · rintro (h | ⟨hmarker, h⟩)
    · exact .plain h
    · obtain ⟨dir, rfl⟩ := isMarker_iff.1 hmarker
      rw [withoutSuffix_append] at h
      exact .marker h

instance (suffix : String) (key : Key) : Decidable (IsWellFormed suffix key) :=
  decidable_of_iff _ isWellFormed_iff.symm

variable {dir : Key} {rest : String}

/-- When a key below a directory is a marker, it is the marker of a key below the directory. -/
theorem below_eq_marker {other : Key} (hsuffix : separator ∉ suffix.toList)
    (h : dir ++ "/" ++ rest = other ++ suffix) :
    ∃ tail, other = dir ++ "/" ++ tail ∧ rest = tail ++ suffix := by
  -- the suffix has no separator, so it lies within the rest
  rcases below_eq_append h with ⟨tail, rfl⟩ | ⟨middle, -, hother⟩
  · exact ⟨tail, rfl, (String.append_right_inj _).1 (h.trans String.append_assoc)⟩
  · apply absurd _ hsuffix
    rw [hother]
    simp [separator]

/-- For a well-formed key below a directory, the directory is plain and the rest is well formed. -/
theorem IsWellFormed.of_below (h : IsWellFormed suffix (dir ++ "/" ++ rest))
    (hsuffix : separator ∉ suffix.toList) : IsPlain suffix dir ∧ IsWellFormed suffix rest := by
  generalize hkey : dir ++ "/" ++ rest = key at h
  cases h with
  | plain h =>
      rw [← hkey, isPlain_append] at h
      exact ⟨h.1, .plain h.2⟩
  | marker h =>
      obtain ⟨tail, rfl, rfl⟩ := below_eq_marker hsuffix hkey
      rw [isPlain_append] at h
      exact ⟨h.1, .marker h.2⟩

/-- A well-formed key that is no marker is plain. -/
theorem IsWellFormed.isPlain (h : IsWellFormed suffix key) (hmarker : isMarker suffix key = false) :
    IsPlain suffix key := by
  cases h with
  | plain h => exact h
  | marker h =>
      rw [isMarker_iff.2 ⟨_, rfl⟩] at hmarker
      cases hmarker

/-- A well-formed marker is that of a plain key. -/
theorem IsWellFormed.of_marker (h : IsWellFormed suffix (dir ++ suffix))
    (hsuffix : separator ∉ suffix.toList) : IsPlain suffix dir := by
  generalize hkey : dir ++ suffix = key at h
  cases h with
  | plain h =>
      rw [← hkey] at h
      exact absurd h (not_isPlain_append_suffix dir hsuffix)
  | marker h => rwa [(String.append_left_inj _).1 hkey]

end BucketTree.Key
