import BucketTree.Proofs.Tree.Queries
import BucketTree.Tree.Entries

/-!
# Entries of a directory

In a bucket of well-formed keys, each key below a directory shows an entry for itself and one for
each directory between them (`Shows`). A recursive listing collects these from the keys, and a
listing of one level from the keys and groups of that level (`mem_shownBy_grouped`). The result
consists exactly of the files and directories that the queries find (`list_exact`).
-/

set_option autoImplicit false

namespace BucketTree

namespace DirectoryEntry

/-! ## Collecting entries -/

theorem mem_addNew {entries : List DirectoryEntry} {e new : DirectoryEntry} :
    e ∈ addNew entries new ↔ e ∈ entries ∨ e = new := by
  unfold addNew
  split
  next hnew =>
    refine ⟨Or.inl, ?_⟩
    rintro (he | rfl)
    · exact he
    · exact List.contains_iff_mem.1 hnew
  next => rw [List.mem_append, List.mem_singleton]

theorem nodup_addNew {entries : List DirectoryEntry} (h : entries.Nodup) (new : DirectoryEntry) :
    (addNew entries new).Nodup := by
  unfold addNew
  split
  · exact h
  next hnew =>
    refine List.nodup_append.2 ⟨h, List.nodup_singleton _, ?_⟩
    rintro e he _ hmem rfl
    obtain rfl := List.mem_singleton.1 hmem
    exact hnew (List.contains_iff_mem.2 he)

/-- Members of a list to which entries were added one by one. -/
theorem mem_foldl_addNew {e : DirectoryEntry} (new entries : List DirectoryEntry) :
    e ∈ new.foldl addNew entries ↔ e ∈ entries ∨ e ∈ new := by
  induction new generalizing entries with
  | nil => simp
  | cons first rest ih => rw [List.foldl_cons, ih, mem_addNew, List.mem_cons, or_assoc]

theorem nodup_foldl_addNew (new : List DirectoryEntry) {entries : List DirectoryEntry}
    (h : entries.Nodup) : (new.foldl addNew entries).Nodup := by
  induction new generalizing entries with
  | nil => exact h
  | cons first rest ih => exact ih (nodup_addNew h first)

/-! ## The entries of one name -/

/-- The ancestors of an entry are the directories whose names, followed by a separator, start its
name. -/
theorem mem_ancestors {e a : DirectoryEntry} :
    a ∈ e.ancestors ↔ ∃ dir rest, a = ⟨dir, true⟩ ∧ e.name = dir ++ "/" ++ rest := by
  show a ∈ (List.range ((Key.parts e.name).length - 1)).map
    (fun i => ⟨Key.separatorText.intercalate ((Key.parts e.name).take (i + 1)), true⟩) ↔ _
  rw [List.mem_map]
  constructor
  · rintro ⟨i, hi, rfl⟩
    have hlength := List.mem_range.1 hi
    refine ⟨_, Key.separatorText.intercalate ((Key.parts e.name).drop (i + 1)), rfl, ?_⟩
    -- the parts are cut in two, and neither half is empty
    have htake : (Key.parts e.name).take (i + 1) ≠ [] := by
      rw [Ne, List.take_eq_nil_iff]
      rintro (hzero | hnil)
      · omega
      · rw [hnil] at hlength
        exact Nat.not_lt_zero i hlength
    have hdrop : (Key.parts e.name).drop (i + 1) ≠ [] := by
      rw [Ne, List.drop_eq_nil_iff]
      omega
    have hjoined := String.intercalate_append_of_ne_nil (s := Key.separatorText) htake hdrop
    rw [List.take_append_drop, Key.intercalate_parts] at hjoined
    exact hjoined
  · rintro ⟨dir, rest, rfl, hname⟩
    have hdir := List.length_pos_of_ne_nil (Key.parts_ne_nil dir)
    have hrest := List.length_pos_of_ne_nil (Key.parts_ne_nil rest)
    refine ⟨(Key.parts dir).length - 1, ?_, ?_⟩
    · rw [hname, Key.parts_append, List.length_append, List.mem_range]
      omega
    · rw [hname, Key.parts_append, Nat.sub_add_cancel hdir, List.take_left, Key.intercalate_parts]

variable {suffix under : String}

/-- A key that ends with a separator shows a directory. -/
theorem ofKey?_open {name : String}
    (h : name = "" ∨ Text.endsWith name Key.separatorText = true) :
    ofKey? suffix under (under ++ name) = directory? name := by
  unfold ofKey?
  rw [Text.dropFirst_append]
  exact if_pos (Bool.or_eq_true_iff.2 (h.imp String.isEmpty_iff.2 id))

/-- Any other key shows a file, unless it is a marker. -/
theorem ofKey?_file {name : String} (hne : name ≠ "")
    (hopen : Text.endsWith name Key.separatorText = false)
    (hmarker : Key.isMarker suffix name = false) :
    ofKey? suffix under (under ++ name) = some ⟨name, false⟩ := by
  have hempty : name.isEmpty = false := Bool.eq_false_iff.2 fun hempty =>
    hne (String.isEmpty_iff.1 hempty)
  unfold ofKey?
  rw [Text.dropFirst_append]
  dsimp only
  rw [hempty, hopen, hmarker]
  rfl

/-- A marker does not end with a separator, as the suffix contains none. -/
theorem endsWith_marker (dir : String) (hsuffix : Key.separator ∉ suffix.toList)
    (hne : suffix ≠ "") : Text.endsWith (dir ++ suffix) Key.separatorText = false := by
  refine Bool.eq_false_iff.2 fun hends => hsuffix ?_
  have hlast := Key.endsWith_separator.1 hends
  rw [String.toList_append,
    List.getLast?_append_of_ne_nil _ (mt String.toList_eq_nil_iff.1 hne)] at hlast
  exact List.mem_of_getLast? hlast

/-- A marker shows its directory, if the directory has a name. -/
theorem ofKey?_marker (dir : String) (hsuffix : Key.separator ∉ suffix.toList) (hne : suffix ≠ "") :
    ofKey? suffix under (under ++ (dir ++ suffix)) =
      if dir.isEmpty then none else some ⟨dir, true⟩ := by
  have hempty : (dir ++ suffix).isEmpty = false := Bool.eq_false_iff.2 fun hempty =>
    hne (String.append_eq_empty_iff.1 (String.isEmpty_iff.1 hempty)).2
  unfold ofKey?
  rw [Text.dropFirst_append]
  dsimp only
  rw [hempty, endsWith_marker dir hsuffix hne, Key.isMarker_iff.2 ⟨dir, rfl⟩,
    Key.withoutSuffix_append]
  rfl

/-- A name without empty parts shows a file, unless it is a marker. -/
theorem ofKey?_of_parts {name : String} (h : ∀ part ∈ Key.parts name, part ≠ "")
    (hmarker : Key.isMarker suffix name = false) :
    ofKey? suffix under (under ++ name) = some ⟨name, false⟩ := by
  refine ofKey?_file (Key.ne_empty_of_parts h) ?_ hmarker
  exact Bool.eq_false_iff.2 fun hends =>
    Key.getLast?_ne_separator h (Key.endsWith_separator.1 hends)

/-- A plain name shows a file. -/
theorem ofKey?_plain {name : String} (h : Key.IsPlain suffix name)
    (hsuffix : Key.separator ∉ suffix.toList) :
    ofKey? suffix under (under ++ name) = some ⟨name, false⟩ :=
  ofKey?_of_parts h.part_ne_empty (h.isMarker_eq_false hsuffix)

/-- The marker of a plain name shows a directory. -/
theorem ofKey?_plainMarker {dir : String} (h : Key.IsPlain suffix dir)
    (hsuffix : Key.separator ∉ suffix.toList) (hne : suffix ≠ "") :
    ofKey? suffix under (under ++ (dir ++ suffix)) = some ⟨dir, true⟩ := by
  rw [ofKey?_marker dir hsuffix hne, if_neg fun hempty => h.ne_root (String.isEmpty_iff.1 hempty)]

/-- A group with a name shows a directory. -/
theorem ofGroup?_append {name : String} (hname : Key.separator ∉ name.toList) (hne : name ≠ "") :
    ofGroup? under (under ++ (name ++ "/")) = some ⟨name, true⟩ := by
  have hhead : (name ++ "/").toList.head? ≠ some Key.separator := by
    intro hhead
    cases hlist : name.toList with
    | nil => exact hne (String.toList_eq_nil_iff.1 hlist)
    | cons first rest =>
        rw [String.toList_append, hlist] at hhead
        rw [hlist] at hname
        cases hhead
        exact hname List.mem_cons_self
  have htrim : Text.trim Key.separator (name ++ "/") = name := by
    rw [Text.trim_eq_trimEnd hhead]
    show Text.trimEnd Key.separator (name ++ String.singleton Key.separator) = name
    rw [Text.trimEnd_append_singleton, Text.trimEnd_eq_self]
    exact fun hlast => hname (List.mem_of_getLast? hlast)
  unfold ofGroup? directory?
  rw [Text.dropFirst_append, htrim]
  dsimp only
  rw [if_neg fun hempty => hne (String.isEmpty_iff.1 hempty)]

/-- The entry of a served name itself. -/
def ofServed? (suffix under : String) (served : ServedName) : Option DirectoryEntry :=
  if served.isGroup then ofGroup? under served.name else ofKey? suffix under served.name

/-- All entries of a served name: its own and, in a recursive listing, those of its ancestors before
it. -/
def shownBy (suffix under : String) (isRecursive : Bool) (served : ServedName) :
    List DirectoryEntry :=
  (ofServed? suffix under served).toList.flatMap (withAncestors isRecursive)

@[simp]
theorem ofServed?_group (name : String) :
    ofServed? suffix under ⟨name, true⟩ = ofGroup? under name := by
  simp only [ofServed?, if_true]

@[simp]
theorem ofServed?_key (name : String) :
    ofServed? suffix under ⟨name, false⟩ = ofKey? suffix under name := by
  simp only [ofServed?, Bool.false_eq_true, if_false]

/-- A chunk shows the entries of its names. -/
theorem mem_ofChunk {isRecursive : Bool} {names : List ServedName} {size : Nat}
    {e : DirectoryEntry} : e ∈ ofChunk suffix under isRecursive (Chunk.ofNames names size) ↔
      ∃ served ∈ names.take size, e ∈ shownBy suffix under isRecursive served := by
  unfold ofChunk shownBy ofServed? Chunk.ofNames
  simp only [List.mem_flatMap, List.mem_append, List.mem_filterMap, List.mem_map, List.mem_filter,
    Option.mem_toList]
  constructor
  · rintro ⟨entry, ⟨_, ⟨served, ⟨hserved, hgroup⟩, rfl⟩, hentry⟩ |
      ⟨_, ⟨served, ⟨hserved, hgroup⟩, rfl⟩, hentry⟩, he⟩
    · exact ⟨served, hserved, entry, by rwa [if_pos hgroup], he⟩
    · rw [Bool.not_eq_true'] at hgroup
      exact ⟨served, hserved, entry, by rwa [hgroup, if_neg Bool.false_ne_true], he⟩
  · rintro ⟨served, hserved, entry, hentry, he⟩
    refine ⟨entry, ?_, he⟩
    cases hgroup : served.isGroup with
    | true =>
        rw [hgroup, if_pos rfl] at hentry
        exact Or.inl ⟨_, ⟨served, ⟨hserved, hgroup⟩, rfl⟩, hentry⟩
    | false =>
        rw [hgroup, if_neg Bool.false_ne_true] at hentry
        exact Or.inr ⟨_, ⟨served, ⟨hserved, by rw [hgroup]; rfl⟩, rfl⟩, hentry⟩

/-! ## The entries of one key -/

/-- The entries of a key, given by its rest after the prefix of the listed directory: the file or
the directory of the marker, and the directories between. -/
inductive Shows (suffix : String) : String → DirectoryEntry → Prop
  | file {name : String} (h : Key.IsPlain suffix name) : Shows suffix name ⟨name, false⟩
  | marker {dir : String} (h : Key.IsPlain suffix dir) : Shows suffix (dir ++ suffix) ⟨dir, true⟩
  | above {dir rest : String} (h : Key.IsPlain suffix dir) :
      Shows suffix (dir ++ "/" ++ rest) ⟨dir, true⟩

section Shows

variable {name : String} {e : DirectoryEntry}

/-- A plain name shows its file and the directories between. -/
theorem shows_plain (h : Key.IsPlain suffix name) (hsuffix : Key.separator ∉ suffix.toList) :
    Shows suffix name e ↔
      e = ⟨name, false⟩ ∨ ∃ dir rest, e = ⟨dir, true⟩ ∧ name = dir ++ "/" ++ rest := by
  constructor
  · intro hshows
    cases hshows with
    | file => exact Or.inl rfl
    | @marker dir hdir => exact absurd h (Key.not_isPlain_append_suffix dir hsuffix)
    | above hdir => exact Or.inr ⟨_, _, rfl, rfl⟩
  · rintro (rfl | ⟨dir, rest, rfl, rfl⟩)
    · exact .file h
    · exact .above (Key.isPlain_append.1 h).1

/-- A marker shows its directory and the directories between. -/
theorem shows_marker {dir : String} (h : Key.IsPlain suffix dir)
    (hsuffix : Key.separator ∉ suffix.toList) : Shows suffix (dir ++ suffix) e ↔
      e = ⟨dir, true⟩ ∨ ∃ parent rest, e = ⟨parent, true⟩ ∧ dir = parent ++ "/" ++ rest := by
  constructor
  · generalize hname : dir ++ suffix = name
    intro hshows
    cases hshows with
    | file hplain =>
        rw [← hname] at hplain
        exact absurd hplain (Key.not_isPlain_append_suffix dir hsuffix)
    | marker hdir =>
        obtain rfl := (String.append_left_inj _).1 hname
        exact Or.inl rfl
    | above hdir =>
        obtain ⟨tail, rfl, -⟩ := Key.below_eq_marker hsuffix hname.symm
        exact Or.inr ⟨_, _, rfl, rfl⟩
  · rintro (rfl | ⟨parent, rest, rfl, rfl⟩)
    · exact .marker h
    · rw [String.append_assoc]
      exact .above (Key.isPlain_append.1 h).1

/-- In a recursive listing, a key shows the entries of `Shows`. -/
theorem mem_shownBy_key (h : Key.IsWellFormed suffix name)
    (hsuffix : Key.separator ∉ suffix.toList) (hne : suffix ≠ "") :
    e ∈ shownBy suffix under true ⟨under ++ name, false⟩ ↔ Shows suffix name e := by
  have hshown : ∀ entry, ofKey? suffix under (under ++ name) = some entry →
      (e ∈ shownBy suffix under true ⟨under ++ name, false⟩ ↔ e = entry ∨
        ∃ dir rest, e = ⟨dir, true⟩ ∧ entry.name = dir ++ "/" ++ rest) := by
    intro entry hentry
    unfold shownBy ofServed? withAncestors
    rw [if_neg Bool.false_ne_true, hentry]
    simp only [Option.toList_some, List.flatMap_singleton, if_pos, List.mem_append,
      List.mem_singleton, mem_ancestors]
    exact or_comm
  cases h with
  | plain h => rw [hshown _ (ofKey?_plain h hsuffix), shows_plain h hsuffix]
  | marker h => rw [hshown _ (ofKey?_plainMarker h hsuffix hne), shows_marker h hsuffix]

/-- A name without separators is served as a key. -/
theorem represents_key (hname : Key.separator ∉ name.toList) :
    ServedName.Represents under Key.separatorText ⟨under ++ name, false⟩ (under ++ name) := by
  exact .key name (Or.inr fun hwithin => hname (hwithin.subset List.mem_cons_self))

/-- A name with separators is served as the group up to the first of them. -/
theorem represents_group {rest : String} (hname : Key.separator ∉ name.toList) :
    ServedName.Represents under Key.separatorText ⟨under ++ (name ++ "/"), true⟩
      (under ++ (name ++ "/" ++ rest)) := by
  refine .group (name ++ "/") rest (by decide) ?_ ?_
  · rw [String.toList_append]
    exact List.suffix_append _ _
  · intro p hp hends
    rw [String.toList_append] at hp ⊢
    -- a shorter start that ends with the separator would have it within the name
    rcases List.prefix_concat_iff.1 hp with hwhole | hwithin
    · exact hwhole
    · exact absurd (hwithin.subset (hends.subset List.mem_cons_self)) hname

/-- In a listing of one level, a key of that level shows its own entry only. -/
theorem mem_shownBy_level (h : Key.IsWellFormed suffix name) (hname : Key.separator ∉ name.toList)
    (hsuffix : Key.separator ∉ suffix.toList) (hne : suffix ≠ "") :
    e ∈ shownBy suffix under false ⟨under ++ name, false⟩ ↔
      Shows suffix name e ∧ Key.separator ∉ e.name.toList := by
  have hlevel : ∀ entry, ofKey? suffix under (under ++ name) = some entry →
      (e ∈ shownBy suffix under false ⟨under ++ name, false⟩ ↔ e = entry) := by
    intro entry hentry
    unfold shownBy ofServed? withAncestors
    rw [if_neg Bool.false_ne_true, hentry]
    simp
  have hnot : ∀ dir rest, name ≠ dir ++ "/" ++ rest := by
    rintro dir rest rfl
    exact hname (by simp [Key.separator])
  cases h with
  | plain h =>
      rw [hlevel _ (ofKey?_plain h hsuffix), shows_plain h hsuffix]
      constructor
      · rintro rfl
        exact ⟨Or.inl rfl, hname⟩
      · rintro ⟨rfl | ⟨dir, rest, -, hdir⟩, -⟩
        · rfl
        · exact absurd hdir (hnot dir rest)
  | @marker dir h =>
      rw [hlevel _ (ofKey?_plainMarker h hsuffix hne), shows_marker h hsuffix]
      constructor
      · rintro rfl
        rw [String.toList_append, List.mem_append, not_or] at hname
        exact ⟨Or.inl rfl, hname.1⟩
      · rintro ⟨rfl | ⟨parent, rest, -, hparent⟩, -⟩
        · rfl
        · rw [hparent, String.append_assoc] at hnot
          exact absurd rfl (hnot parent (rest ++ suffix))

/-- In a listing of one level, the group of a deeper key shows its first directory. -/
theorem mem_shownBy_group {rest : String} (h : Key.IsWellFormed suffix (name ++ "/" ++ rest))
    (hname : Key.separator ∉ name.toList) (hsuffix : Key.separator ∉ suffix.toList) :
    e ∈ shownBy suffix under false ⟨under ++ (name ++ "/"), true⟩ ↔
      Shows suffix (name ++ "/" ++ rest) e ∧ Key.separator ∉ e.name.toList := by
  have hplain := (h.of_below hsuffix).1
  have hshown : e ∈ shownBy suffix under false ⟨under ++ (name ++ "/"), true⟩ ↔
      e = ⟨name, true⟩ := by
    unfold shownBy ofServed? withAncestors
    rw [if_pos rfl, ofGroup?_append hname hplain.ne_root]
    simp
  rw [hshown]
  constructor
  · rintro rfl
    exact ⟨.above hplain, hname⟩
  · -- of what the key shows, only its first directory has a name without separators
    rintro ⟨hshows, hlevel⟩
    generalize hkey : name ++ "/" ++ rest = key at hshows
    cases hshows with
    | file =>
        rw [← hkey] at hlevel
        exact absurd (by simp [Key.separator]) hlevel
    | marker =>
        obtain ⟨tail, rfl, -⟩ := Key.below_eq_marker hsuffix hkey
        exact absurd (by simp [Key.separator]) hlevel
    | above => rw [Key.first_eq hname hlevel hkey]

/-- In a listing of one level, a key shows those entries of `Shows` that are of that level. -/
theorem mem_shownBy_grouped (h : Key.IsWellFormed suffix name)
    (hsuffix : Key.separator ∉ suffix.toList) (hne : suffix ≠ "") :
    (∃ served, ServedName.Represents under Key.separatorText served (under ++ name) ∧
      e ∈ shownBy suffix under false served) ↔
    Shows suffix name e ∧ Key.separator ∉ e.name.toList := by
  rcases Key.exists_first name with hname | ⟨first, rest, rfl, hfirst⟩
  · rw [ServedName.exists_represents (represents_key hname)]
    exact mem_shownBy_level h hname hsuffix hne
  · rw [ServedName.exists_represents (represents_group hfirst)]
    exact mem_shownBy_group h hfirst hsuffix

end Shows

end DirectoryEntry

/-! ## Whole listings -/

/-- A name without empty parts below the listed directory; in a listing of one level it has no
separator. -/
structure IsBelow (isRecursive : Bool) (name : String) : Prop where
  part_ne_empty : ∀ part ∈ Key.parts name, part ≠ ""
  one_level : isRecursive = false → Key.separator ∉ name.toList

/-- The entries are those of the directory, without repetitions: the files are the objects below it,
and the directories are those of `Directory.IsAt`. -/
structure ListsDirectory (suffix : String) (key : Key) (isRecursive : Bool) (contents : Contents)
    (entries : List DirectoryEntry) : Prop where
  nodup : entries.Nodup
  files : ∀ name, ⟨name, false⟩ ∈ entries ↔ IsBelow isRecursive name ∧
    Key.isMarker suffix name = false ∧ contents (Key.join key name) ≠ none
  directories : ∀ name, ⟨name, true⟩ ∈ entries ↔ IsBelow isRecursive name ∧
    Directory.IsAt suffix (Key.join key name) contents

section Listings

variable {suffix : String} {key : Key} {contents : Contents} {name : String}

/-- The file `name` is shown exactly by an object at its key. -/
theorem exists_shows_file (hsuffix : Key.separator ∉ suffix.toList)
    (hwf : ∀ key, contents key ≠ none → Key.IsWellFormed suffix key) :
    (∃ rest, contents (Key.directoryPrefix key ++ rest) ≠ none ∧
      DirectoryEntry.Shows suffix rest ⟨name, false⟩) ↔
    (∀ part ∈ Key.parts name, part ≠ "") ∧ Key.isMarker suffix name = false ∧
      contents (Key.join key name) ≠ none := by
  constructor
  · rintro ⟨rest, hpresent, hshows⟩
    cases hshows with
    | file h =>
        rw [Key.join_eq key h.part_ne_empty]
        exact ⟨h.part_ne_empty, h.isMarker_eq_false hsuffix, hpresent⟩
  · rintro ⟨hparts, hmarker, hpresent⟩
    rw [Key.join_eq key hparts] at hpresent
    have hname := (hwf _ hpresent).of_directoryPrefix hsuffix
    exact ⟨name, hpresent, .file (hname.isPlain hmarker)⟩

/-- A directory below another one exists when its marker does, or some key below it. -/
theorem isAt_join (hparts : ∀ part ∈ Key.parts name, part ≠ "") :
    Directory.IsAt suffix (Key.join key name) contents ↔
      contents (Key.directoryPrefix key ++ (name ++ suffix)) ≠ none ∨
        ∃ rest, contents (Key.directoryPrefix key ++ (name ++ "/" ++ rest)) ≠ none := by
  have hroot : Key.directoryPrefix key ++ name ≠ Key.root := by
    intro hroot
    obtain ⟨-, rfl⟩ := String.append_eq_empty_iff.1 hroot
    exact hparts "" (by rw [Key.parts_of_not_mem List.not_mem_nil]; exact List.mem_cons_self) rfl
  unfold Directory.IsAt
  rw [Key.join_eq key hparts, Key.directoryPrefix_eq hroot, or_iff_right hroot]
  simp only [String.append_assoc]

/-- The directory `name` is shown exactly when its marker or some key below it exists. -/
theorem exists_shows_directory (hsuffix : Key.separator ∉ suffix.toList)
    (hwf : ∀ key, contents key ≠ none → Key.IsWellFormed suffix key) :
    (∃ rest, contents (Key.directoryPrefix key ++ rest) ≠ none ∧
      DirectoryEntry.Shows suffix rest ⟨name, true⟩) ↔
    (∀ part ∈ Key.parts name, part ≠ "") ∧ Directory.IsAt suffix (Key.join key name) contents := by
  constructor
  · rintro ⟨rest, hpresent, hshows⟩
    cases hshows with
    | marker h => exact ⟨h.part_ne_empty, (isAt_join h.part_ne_empty).2 (Or.inl hpresent)⟩
    | above h => exact ⟨h.part_ne_empty, (isAt_join h.part_ne_empty).2 (Or.inr ⟨_, hpresent⟩)⟩
  · rintro ⟨hparts, hdirectory⟩
    rcases (isAt_join hparts).1 hdirectory with hmarker | ⟨rest, hbelow⟩
    · have hname := (hwf _ hmarker).of_directoryPrefix hsuffix
      exact ⟨_, hmarker, .marker (hname.of_marker hsuffix)⟩
    · have hname := (hwf _ hbelow).of_directoryPrefix hsuffix
      exact ⟨_, hbelow, .above (hname.of_below hsuffix).1⟩

/-- The served name that represents a key shows those entries of the key that are of the listed
levels. -/
theorem mem_shownBy_represents {isRecursive : Bool} {rest : String} {e : DirectoryEntry}
    (h : Key.IsWellFormed suffix rest) (hsuffix : Key.separator ∉ suffix.toList) (hne : suffix ≠ "")
    (under : String) :
    (∃ served, ServedName.Represents under (if isRecursive then "" else Key.separatorText) served
        (under ++ rest) ∧ e ∈ DirectoryEntry.shownBy suffix under isRecursive served) ↔
      DirectoryEntry.Shows suffix rest e ∧
        (isRecursive = false → Key.separator ∉ e.name.toList) := by
  cases isRecursive with
  | true =>
      rw [if_pos rfl, ServedName.exists_represents (.key rest (Or.inl rfl)),
        DirectoryEntry.mem_shownBy_key h hsuffix hne]
      exact (and_iff_left nofun).symm
  | false =>
      rw [if_neg Bool.false_ne_true, DirectoryEntry.mem_shownBy_grouped h hsuffix hne]
      exact and_congr_right fun _ => (imp_iff_right rfl).symm

/-- The entries of the served names are those of the keys below the directory. -/
theorem exists_shownBy {b : Bucket} {isRecursive : Bool} {e : DirectoryEntry}
    (hsuffix : Key.separator ∉ suffix.toList) (hne : suffix ≠ "")
    (hwf : ∀ key, b.contents key ≠ none → Key.IsWellFormed suffix key) :
    (∃ served ∈ b.servedNames (Key.directoryPrefix key)
        (if isRecursive then "" else Key.separatorText),
      e ∈ DirectoryEntry.shownBy suffix (Key.directoryPrefix key) isRecursive served) ↔
    (∃ rest, b.contents (Key.directoryPrefix key ++ rest) ≠ none ∧
      DirectoryEntry.Shows suffix rest e) ∧
        (isRecursive = false → Key.separator ∉ e.name.toList) := by
  constructor
  · rintro ⟨served, hserved, he⟩
    obtain ⟨_, hpresent, hrepresents⟩ := Bucket.mem_servedNames.1 hserved
    obtain ⟨rest, rfl⟩ := hrepresents.beginsWith
    have hrest := (hwf _ hpresent).of_directoryPrefix hsuffix
    obtain ⟨hshows, hlevel⟩ :=
      (mem_shownBy_represents hrest hsuffix hne _).1 ⟨served, hrepresents, he⟩
    exact ⟨⟨rest, hpresent, hshows⟩, hlevel⟩
  · rintro ⟨⟨rest, hpresent, hshows⟩, hlevel⟩
    have hrest := (hwf _ hpresent).of_directoryPrefix hsuffix
    obtain ⟨served, hrepresents, he⟩ :=
      (mem_shownBy_represents hrest hsuffix hne _).2 ⟨hshows, hlevel⟩
    exact ⟨served, Bucket.mem_servedNames.2 ⟨_, hpresent, hrepresents⟩, he⟩

/-- Entries without repetitions that are those of the served names list the directory. -/
theorem listsDirectory_of_shown {b : Bucket} {isRecursive : Bool} {entries : List DirectoryEntry}
    (hsuffix : Key.separator ∉ suffix.toList) (hne : suffix ≠ "")
    (hwf : ∀ key, b.contents key ≠ none → Key.IsWellFormed suffix key) (hnodup : entries.Nodup)
    (hentries : ∀ e, e ∈ entries ↔ ∃ served ∈ b.servedNames (Key.directoryPrefix key)
        (if isRecursive then "" else Key.separatorText),
      e ∈ DirectoryEntry.shownBy suffix (Key.directoryPrefix key) isRecursive served) :
    ListsDirectory suffix key isRecursive b.contents entries := by
  refine ⟨hnodup, ?_, ?_⟩
  · intro name
    rw [hentries, exists_shownBy hsuffix hne hwf, exists_shows_file hsuffix hwf]
    constructor
    · rintro ⟨⟨hparts, hfile⟩, hlevel⟩
      exact ⟨⟨hparts, hlevel⟩, hfile⟩
    · rintro ⟨⟨hparts, hlevel⟩, hfile⟩
      exact ⟨⟨hparts, hfile⟩, hlevel⟩
  · intro name
    rw [hentries, exists_shownBy hsuffix hne hwf, exists_shows_directory hsuffix hwf]
    constructor
    · rintro ⟨⟨hparts, hdirectory⟩, hlevel⟩
      exact ⟨⟨hparts, hlevel⟩, hdirectory⟩
    · rintro ⟨⟨hparts, hlevel⟩, hdirectory⟩
      exact ⟨⟨hparts, hdirectory⟩, hlevel⟩

/-- The loop invariant of a listing: the entries collected are those of the served names visited so
far. -/
structure Collecting (suffix under : String) (isRecursive : Bool) (names left : List ServedName)
    (entries : List DirectoryEntry) : Prop where
  nodup : entries.Nodup
  shown : ∃ gone, names = gone ++ left ∧ ∀ e, e ∈ entries ↔
    ∃ served ∈ gone, e ∈ DirectoryEntry.shownBy suffix under isRecursive served

namespace Collecting

variable {under : String} {isRecursive : Bool} {names left : List ServedName}
  {entries : List DirectoryEntry}

theorem start (suffix under : String) (isRecursive : Bool) (names : List ServedName) :
    Collecting suffix under isRecursive names names [] :=
  ⟨List.nodup_nil, [], rfl, fun e => by simp⟩

/-- A chunk adds the entries of its names. -/
theorem chunk (h : Collecting suffix under isRecursive names left entries) (size : Nat) :
    Collecting suffix under isRecursive names (left.drop size)
      ((DirectoryEntry.ofChunk suffix under isRecursive (Chunk.ofNames left size)).foldl
        DirectoryEntry.addNew entries) := by
  obtain ⟨hnodup, gone, rfl, hshown⟩ := h
  refine ⟨DirectoryEntry.nodup_foldl_addNew _ hnodup, gone ++ left.take size, ?_, ?_⟩
  · rw [List.append_assoc, List.take_append_drop]
  · intro e
    rw [DirectoryEntry.mem_foldl_addNew, hshown, DirectoryEntry.mem_ofChunk]
    simp only [List.mem_append, or_and_right, exists_or]

end Collecting

end Listings

namespace Tree

section Rules

variable {fails : Request → Fault → Prop} {b : Bucket}

/-- A walk over a listing collects the entries of its served names. -/
theorem ensures_collecting (suffix under : String) (isRecursive : Bool) (pageSize : Value)
    (cancel : Option Token) (pages : Nat) :
    ((Listing.start (some under) isRecursive pageSize cancel).walk (fun chunk =>
        modify fun entries => (DirectoryEntry.ofChunk suffix under isRecursive chunk).foldl
          DirectoryEntry.addNew entries) pages).Ensures (Bucket.environment fails)
      (fun q _ => q.isQuery)
      (Walk.Ends (fun _ entries b' => b' = b ∧ Collecting suffix under isRecursive
        (b.servedNames under (if isRecursive then "" else Key.separatorText)) [] entries)
        (fun fault _ b' => b' = b ∧ Listing.MayBreak fails pageSize cancel ∧
          ∃ failure, fault = .known failure ∧ Listing.IsFailure failure)
        (fun b' => b' = b ∧ pages <
          (b.servedNames under (if isRecursive then "" else Key.separatorText)).length + 2))
        [] b := by
  apply Listing.ensures_walk_unchanged
  · rfl
  · exact fun _ => trivial
  · intro left entries size _ hcollecting
    exact Walk.ensures_modify ⟨rfl, hcollecting.chunk size⟩
  · intro _ _ failure _ hfailure hbreak
    exact ⟨rfl, hbreak, failure, rfl, hfailure⟩
  · exact fun hpages => ⟨rfl, hpages⟩
  · exact Collecting.start suffix under isRecursive _

/-- A listing returns the entries of the served names. Without any it looks for the marker, and says
that the directory does not exist when there is none. -/
theorem ensures_listed (hloud : Loud fails) {t : Tree} {path : Value} {key : Key}
    {isRecursive : Bool} {cancel : Option Token}
    {post : Option (Except Fault (List DirectoryEntry)) → Bucket → Prop}
    (hresolve : t.resolve path = .ok key)
    (hlisted : ∀ entries,
      Collecting t.suffix (Key.directoryPrefix key) isRecursive
        (b.servedNames (Key.directoryPrefix key) (if isRecursive then "" else Key.separatorText)) []
        entries →
      (entries = [] → key = Key.root ∨ b.contents (key ++ t.suffix) ≠ none) →
      post (some (.ok entries)) b)
    (habsent :
      Collecting t.suffix (Key.directoryPrefix key) isRecursive
        (b.servedNames (Key.directoryPrefix key) (if isRecursive then "" else Key.separatorText)) []
        [] →
      key ≠ Key.root → b.contents (key ++ t.suffix) = none →
      post (some (.error (.known (.notFound key (.noSuchDirectory key))))) b)
    (hfail : ∀ failure, IsQueryFailure failure →
      QueryMayFail fails t.settings.chunkLength cancel → post (some (.error (.known failure))) b)
    (hendless : t.pageLimit < (b.servedNames (Key.directoryPrefix key)
      (if isRecursive then "" else Key.separatorText)).length + 2 → post none b) :
    (t.list path isRecursive cancel).Ensures (Bucket.environment fails) (fun q _ => q.isQuery)
      post b := by
  refine Action.ensures_bind (ensures_key ?_)
  rw [hresolve]
  refine Action.ensures_bind (Action.ensures_bind (ensures_key ?_))
  rw [hresolve]
  refine Action.ensures_bind (Walk.ensures_collect ((ensures_collecting _ _ _ _ _ _).mono ?_))
  rintro (_ | ⟨fault | _, entries⟩) b' hend
  · obtain ⟨rfl, hpages⟩ := hend
    exact hendless hpages
  · obtain ⟨rfl, hbreak, failure, rfl, hfailure⟩ := hend
    exact hfail failure (Or.inr hfailure) (Or.inr hbreak)
  · obtain ⟨rfl, hcollecting⟩ := hend
    show Action.Ensures _ _ _ (if (entries.isEmpty && key != Key.root) = true then _ else _) b'
    by_cases hempty : (entries.isEmpty && key != Key.root) = true
    · -- without entries the directory is there only when its marker is
      obtain ⟨hnil, hne⟩ := Bool.and_eq_true_iff.1 hempty
      have hroot : key ≠ Key.root := bne_iff_ne.1 hne
      rw [if_pos hempty]
      refine Action.ensures_bind
        (Directory.ensures_markerStatus hloud hroot (fun _ hquery => hquery) ?_ ?_ ?_)
      · intro object hmarker
        refine hlisted entries hcollecting fun _ => Or.inr ?_
        rw [Bucket.contents_of_find? hmarker]
        exact Option.some_ne_none _
      · intro hmarker
        obtain rfl := List.isEmpty_iff.1 hnil
        exact habsent hcollecting hroot (Bucket.contents_eq_none.2 hmarker)
      · intro failure hkind hfault
        exact hfail failure (Or.inl hkind) (Or.inl ⟨_, hfault⟩)
    · rw [if_neg hempty]
      refine hlisted entries hcollecting ?_
      rintro rfl
      by_contra hnot
      rw [not_or] at hnot
      exact hempty (Bool.and_eq_true_iff.2 ⟨rfl, bne_iff_ne.2 hnot.1⟩)

/-- The entries are those of the names served below the key of the path. -/
def ShowsNames (t : Tree) (path : Value) (isRecursive : Bool) (b : Bucket)
    (entries : List DirectoryEntry) : Prop :=
  ∃ key, t.resolve path = .ok key ∧
    Collecting t.suffix (Key.directoryPrefix key) isRecursive
      (b.servedNames (Key.directoryPrefix key) (if isRecursive then "" else Key.separatorText)) []
      entries

/-- A listing leaves the bucket alone and returns the entries of the served names. -/
theorem ensures_list (hloud : Loud fails) (t : Tree) (path : Value) (isRecursive : Bool)
    (cancel : Option Token) :
    (t.list path isRecursive cancel).Ensures (Bucket.environment fails) (fun q _ => q.isQuery)
      (fun r b' => b' = b ∧ ∀ entries, r = some (.ok entries) →
        t.ShowsNames path isRecursive b entries) b := by
  cases hresolve : t.resolve path with
  | error fault =>
      refine Action.ensures_bind (ensures_key ?_)
      rw [hresolve]
      exact ⟨rfl, nofun⟩
  | ok key =>
      apply ensures_listed hloud hresolve
      · intro entries hcollecting _
        refine ⟨rfl, ?_⟩
        rintro _ ⟨⟩
        exact ⟨key, hresolve, hcollecting⟩
      · exact fun _ _ _ => ⟨rfl, nofun⟩
      · exact fun _ _ _ => ⟨rfl, nofun⟩
      · exact fun _ => ⟨rfl, nofun⟩

end Rules

/-- In a bucket of well-formed keys, the entries that a listing in memory returns are those of the
directory at its path, for one level and for all levels. -/
theorem list_exact (t : Tree) (path : Value) (isRecursive : Bool) (cancel : Option Token)
    (m : Memory)
    (hwf : ∀ key, (m.bucket t.bucket).contents key ≠ none → Key.IsWellFormed t.suffix key)
    {entries : List DirectoryEntry}
    (hreturned : Action.returned?
      ((t.list path isRecursive cancel).perform (Memory.backend t.bucket) m).1 = some entries) :
    ∃ key, t.resolve path = .ok key ∧
      ListsDirectory t.suffix key isRecursive (m.bucket t.bucket).contents entries := by
  obtain ⟨-, -, hend⟩ := (ensures_list Memory.loud_refuses t path isRecursive cancel
    (b := m.bucket t.bucket)).run (Memory.backend_follows t.bucket)
  obtain ⟨key, hresolve, hnodup, _, hgone, hshown⟩ :=
    hend entries (Action.returned?_eq_some hreturned)
  rw [List.append_nil] at hgone
  subst hgone
  exact ⟨key, hresolve, listsDirectory_of_shown t.settings.separator_not_mem
    t.settings.folderSuffix_ne hwf hnodup hshown⟩

/-- The directory `d` with an object, an empty directory, and a directory that exists by the object
below it. -/
def drawer : Memory :=
  .ofObjects "b" [("d/a", [1]), ("d/e_$folder$", []), ("d/s/b", [2]), ("da", [3])]

/-- The recursive listing of `/d` with one key on each page. -/
theorem list_exact_drawer :
    (∀ key, (drawer.bucket "b").contents key ≠ none → Key.IsWellFormed "_$folder$" key) ∧
    ListsDirectory "_$folder$" "d" true (drawer.bucket "b").contents
      [⟨"a", false⟩, ⟨"e", true⟩, ⟨"s", true⟩, ⟨"s/b", false⟩] := by
  have hwf : ∀ key ∈ (drawer.bucket "b").keys, Key.IsWellFormed "_$folder$" key := by
    decide +kernel
  have hcontents : ∀ key, (drawer.bucket "b").contents key ≠ none →
      Key.IsWellFormed "_$folder$" key := fun key hpresent => hwf key (Bucket.mem_keys.2 hpresent)
  have hreturned : Action.returned?
      ((keyByKey.list "/d" true none).perform (Memory.backend "b") drawer).1 =
        some [⟨"a", false⟩, ⟨"e", true⟩, ⟨"s", true⟩, ⟨"s/b", false⟩] := by decide +kernel
  obtain ⟨key, hresolve, hlists⟩ := list_exact keyByKey "/d" true none drawer hcontents hreturned
  cases hresolve
  exact ⟨hcontents, hlists⟩

end Tree

end BucketTree
