import BucketTree.Proofs.Tree.Entries

/-!
# Names of entries

Keys written by other tools may have empty segments, and separators at either end. A listing of one
level shows none of them: a group ends at its first separator and is trimmed. A recursive listing
trims only keys that end with a separator, so all of its entries have proper names exactly when no
key below the directory has a superfluous separator elsewhere (`Key.IsTidy`, `Tree.list_names_iff`).
-/

set_option autoImplicit false

namespace BucketTree

/-- The rests of keys, after the prefix of the listed directory, from which a recursive listing gets
an entry without empty parts in its name, or no entry. -/
inductive Key.IsTidy (suffix : String) : String → Prop
  /-- Separators only, or the empty text. -/
  | blank {rest : String} (h : ∀ c ∈ rest.toList, c = Key.separator) : IsTidy suffix rest
  /-- The marker of a directory without a name. -/
  | bare : IsTidy suffix suffix
  | file {name : String} (h : ∀ part ∈ Key.parts name, part ≠ "")
      (hmarker : Key.isMarker suffix name = false) : IsTidy suffix name
  | marker {dir : String} (h : ∀ part ∈ Key.parts dir, part ≠ "") : IsTidy suffix (dir ++ suffix)
  /-- A rest that ends with a separator: the separators at both ends are trimmed. -/
  | placeholder {before name behind : String} (h : ∀ part ∈ Key.parts name, part ≠ "")
      (hbefore : ∀ c ∈ before.toList, c = Key.separator)
      (hbehind : ∀ c ∈ behind.toList, c = Key.separator) (hne : behind ≠ "") :
      IsTidy suffix (before ++ name ++ behind)

namespace DirectoryEntry

variable {suffix under rest : String}

/-- The name of the entry has no empty parts, so it neither starts nor ends with a separator. -/
def HasName (e : DirectoryEntry) : Prop := ∀ part ∈ Key.parts e.name, part ≠ ""

/-- The ancestors of an entry have names without empty parts exactly when the entry does. -/
theorem forall_withAncestors_hasName (isRecursive : Bool) (e : DirectoryEntry) :
    (∀ a ∈ e.withAncestors isRecursive, a.HasName) ↔ e.HasName := by
  unfold withAncestors
  cases isRecursive with
  | false => simp
  | true =>
      simp only [if_pos, List.forall_mem_append, List.forall_mem_singleton, and_iff_right_iff_imp]
      intro h a ha part hpart
      obtain ⟨dir, rest, rfl, hname⟩ := mem_ancestors.1 ha
      -- the parts of a directory on the way are parts of the entry
      refine h part ?_
      rw [hname, Key.parts_append]
      exact List.mem_append_left _ hpart

/-- The entries of a served name have names without empty parts exactly when its own entry does. -/
theorem forall_shownBy_hasName {isRecursive : Bool} {served : ServedName} :
    (∀ e ∈ shownBy suffix under isRecursive served, e.HasName) ↔
      ∀ entry, ofServed? suffix under served = some entry → entry.HasName := by
  simp only [shownBy, List.forall_mem_flatMap, forall_withAncestors_hasName, Option.mem_toList]

/-! ## The entry of a key -/

/-- The directory of a text with more than separators has the trimmed text as its name. -/
theorem directory?_of_ne {name : String} (h : Text.trim Key.separator name ≠ "") :
    directory? name = some ⟨Text.trim Key.separator name, true⟩ := by
  rw [directory?]
  exact if_neg fun hempty => h (String.isEmpty_iff.1 hempty)

/-- A text of separators only shows no entry. -/
theorem ofKey?_blank (h : ∀ c ∈ rest.toList, c = Key.separator) :
    ofKey? suffix under (under ++ rest) = none := by
  have hopen : rest = "" ∨ Text.endsWith rest Key.separatorText = true := by
    by_cases hempty : rest = ""
    · exact Or.inl hempty
    · obtain ⟨last, hlast⟩ := Option.isSome_iff_exists.1
        (List.getLast?_isSome.2 (mt String.toList_eq_nil_iff.1 hempty))
      rw [Key.endsWith_separator, hlast, h last (List.mem_of_getLast? hlast)]
      exact Or.inr rfl
  rw [ofKey?_open hopen, directory?, Text.trim_eq_empty.2 h]
  rfl

/-- The entry of a rest that ends with a separator has the trimmed rest as its name. -/
theorem ofKey?_placeholder {before name behind : String} (h : ∀ part ∈ Key.parts name, part ≠ "")
    (hbefore : ∀ c ∈ before.toList, c = Key.separator)
    (hbehind : ∀ c ∈ behind.toList, c = Key.separator) (hne : behind ≠ "") :
    ofKey? suffix under (under ++ (before ++ name ++ behind)) = some ⟨name, true⟩ := by
  have hname := Key.ne_empty_of_parts h
  have hopen : Text.endsWith (before ++ name ++ behind) Key.separatorText = true := by
    have hlist := mt String.toList_eq_nil_iff.1 hne
    obtain ⟨last, hlast⟩ := Option.isSome_iff_exists.1 (List.getLast?_isSome.2 hlist)
    rw [Key.endsWith_separator, String.toList_append, List.getLast?_append_of_ne_nil _ hlist, hlast,
      hbehind last (List.mem_of_getLast? hlast)]
  rw [ofKey?_open (Or.inr hopen), directory?, Text.trim_append hbefore hbehind hname
    (Key.head?_ne_separator h) (Key.getLast?_ne_separator h)]
  exact if_neg fun hempty => hname (String.isEmpty_iff.1 hempty)

/-- The entry of a tidy rest, if any, has a name without empty parts. -/
theorem hasName_of_isTidy (h : Key.IsTidy suffix rest) (hsuffix : Key.separator ∉ suffix.toList)
    (hne : suffix ≠ "") {entry : DirectoryEntry}
    (hentry : ofKey? suffix under (under ++ rest) = some entry) : entry.HasName := by
  cases h with
  | blank hblank =>
      rw [ofKey?_blank hblank] at hentry
      cases hentry
  | bare =>
      have hbare : ofKey? suffix under (under ++ ("" ++ suffix)) = none :=
        ofKey?_marker "" hsuffix hne
      rw [String.empty_append, hentry] at hbare
      cases hbare
  | file hparts hmarker =>
      rw [ofKey?_of_parts hparts hmarker] at hentry
      cases hentry
      exact hparts
  | @marker dir hparts =>
      rw [ofKey?_marker dir hsuffix hne,
        if_neg fun hempty => Key.ne_empty_of_parts hparts (String.isEmpty_iff.1 hempty)] at hentry
      cases hentry
      exact hparts
  | placeholder hparts hbefore hbehind hsome =>
      rw [ofKey?_placeholder hparts hbefore hbehind hsome] at hentry
      cases hentry
      exact hparts

/-- A rest that ends with a separator is tidy if its entry has a name without empty parts. -/
theorem isTidy_of_open (hends : Text.endsWith rest Key.separatorText = true)
    (h : ∀ entry, directory? rest = some entry → entry.HasName) : Key.IsTidy suffix rest := by
  by_cases hempty : Text.trim Key.separator rest = ""
  · exact .blank (Text.trim_eq_empty.1 hempty)
  · have hname := h _ (directory?_of_ne hempty)
    have hparts : ∀ part ∈ Key.parts (Text.trim Key.separator rest), part ≠ "" := hname
    obtain ⟨before, behind, hbefore, hbehind, hrest⟩ := Text.exists_eq_trim Key.separator rest
    rw [hrest]
    refine .placeholder hparts hbefore hbehind ?_
    rintro rfl
    -- the last character would be that of the name
    have hlast := Key.endsWith_separator.1 hends
    rw [hrest, String.append_empty, String.toList_append,
      List.getLast?_append_of_ne_nil _ (mt String.toList_eq_nil_iff.1 hempty)] at hlast
    exact Key.getLast?_ne_separator hparts hlast

/-- In a recursive listing, a key shows a name without empty parts, or nothing, exactly when its
rest is tidy. -/
theorem ofKey?_hasName_iff (hsuffix : Key.separator ∉ suffix.toList) (hne : suffix ≠ "") :
    (∀ entry, ofKey? suffix under (under ++ rest) = some entry → entry.HasName) ↔
      Key.IsTidy suffix rest := by
  refine ⟨fun h => ?_, fun h entry => hasName_of_isTidy h hsuffix hne⟩
  by_cases hempty : rest = ""
  · rw [hempty]
    exact .blank fun c hc => absurd hc List.not_mem_nil
  by_cases hends : Text.endsWith rest Key.separatorText = true
  · rw [ofKey?_open (Or.inr hends)] at h
    exact isTidy_of_open hends h
  rw [Bool.not_eq_true] at hends
  by_cases hmarker : Key.isMarker suffix rest = true
  · obtain ⟨dir, rfl⟩ := Key.isMarker_iff.1 hmarker
    rw [ofKey?_marker dir hsuffix hne] at h
    by_cases hdir : dir = ""
    · rw [hdir, String.empty_append]
      exact .bare
    · exact .marker (h ⟨dir, true⟩ (if_neg fun hnone => hdir (String.isEmpty_iff.1 hnone)))
  · rw [Bool.not_eq_true] at hmarker
    exact .file (h ⟨rest, false⟩ (ofKey?_file hempty hends hmarker)) hmarker

/-! ## The entry of a group -/

/-- The group of keys that go on with a separator shows no entry. -/
theorem ofGroup?_separator : ofGroup? under (under ++ ("" ++ "/")) = none := by
  have hblank : ∀ c ∈ ("" ++ "/").toList, c = Key.separator := by simp [Key.separator]
  rw [ofGroup?, Text.dropFirst_append, directory?, Text.trim_eq_empty.2 hblank]
  rfl

/-- A rest without separators is tidy. -/
theorem isTidy_of_level (h : Key.separator ∉ rest.toList) : Key.IsTidy suffix rest := by
  by_cases hempty : rest = ""
  · rw [hempty]
    exact .blank fun c hc => absurd hc List.not_mem_nil
  have hparts : ∀ part ∈ Key.parts rest, part ≠ "" := by
    rw [Key.parts_of_not_mem h, List.forall_mem_singleton]
    exact hempty
  by_cases hmarker : Key.isMarker suffix rest = true
  · obtain ⟨dir, rfl⟩ := Key.isMarker_iff.1 hmarker
    rw [String.toList_append, List.mem_append, not_or] at h
    by_cases hdir : dir = ""
    · rw [hdir, String.empty_append]
      exact .bare
    · refine .marker ?_
      rw [Key.parts_of_not_mem h.1, List.forall_mem_singleton]
      exact hdir
  · exact .file hparts (Bool.not_eq_true _ ▸ hmarker)

/-- In a listing of one level, every served name shows a name without empty parts, or nothing. -/
theorem hasName_of_level {served : ServedName} (hsuffix : Key.separator ∉ suffix.toList)
    (hne : suffix ≠ "")
    (h : ServedName.Represents under Key.separatorText served (under ++ rest))
    {entry : DirectoryEntry} (hentry : ofServed? suffix under served = some entry) :
    entry.HasName := by
  rcases Key.exists_first rest with hrest | ⟨first, others, rfl, hfirst⟩
  · obtain rfl := (ServedName.ofKey_eq_of_represents h).symm.trans
      (ServedName.ofKey_eq_of_represents (represents_key hrest))
    rw [ofServed?_key] at hentry
    exact hasName_of_isTidy (isTidy_of_level hrest) hsuffix hne hentry
  · obtain rfl := (ServedName.ofKey_eq_of_represents h).symm.trans
      (ServedName.ofKey_eq_of_represents (represents_group hfirst))
    rw [ofServed?_group] at hentry
    by_cases hempty : first = ""
    · subst hempty
      rw [ofGroup?_separator] at hentry
      cases hentry
    · rw [ofGroup?_append hfirst hempty] at hentry
      cases hentry
      unfold HasName
      rw [Key.parts_of_not_mem hfirst, List.forall_mem_singleton]
      exact hempty

/-- In a listing of one level, all served names show names without empty parts. In a recursive
listing they do exactly when the rest of every key is tidy. -/
theorem forall_served_hasName_iff {b : Bucket} {isRecursive : Bool}
    (hsuffix : Key.separator ∉ suffix.toList) (hne : suffix ≠ "") :
    (∀ served ∈ b.servedNames under (if isRecursive then "" else Key.separatorText),
      ∀ entry, ofServed? suffix under served = some entry → entry.HasName) ↔
    isRecursive = false ∨ ∀ rest, b.contents (under ++ rest) ≠ none → Key.IsTidy suffix rest := by
  cases isRecursive with
  | false =>
      refine iff_of_true (fun served hserved entry hentry => ?_) (Or.inl rfl)
      obtain ⟨_, -, hrepresents⟩ := Bucket.mem_servedNames.1 hserved
      obtain ⟨rest, rfl⟩ := hrepresents.beginsWith
      exact hasName_of_level hsuffix hne hrepresents hentry
  | true =>
      rw [or_iff_right Bool.noConfusion]
      constructor
      · intro h rest hpresent
        have hserved := h ⟨under ++ rest, false⟩
          (Bucket.mem_servedNames.2 ⟨_, hpresent, .key rest (Or.inl rfl)⟩)
        simp only [ofServed?_key] at hserved
        exact (ofKey?_hasName_iff hsuffix hne).1 hserved
      · intro h served hserved entry hentry
        obtain ⟨_, hpresent, hrepresents⟩ := Bucket.mem_servedNames.1 hserved
        cases hrepresents with
        | key rest _ =>
            rw [ofServed?_key] at hentry
            exact hasName_of_isTidy (h rest hpresent) hsuffix hne hentry
        | group _ _ hdelimiter => exact absurd rfl hdelimiter

end DirectoryEntry

namespace Tree

/-- In a listing of one level that returns in memory, all entries have names without empty parts. In
a recursive listing they do exactly when every key below the directory is tidy. -/
theorem list_names_iff (t : Tree) (path : Value) (isRecursive : Bool) (cancel : Option Token)
    (m : Memory) {entries : List DirectoryEntry}
    (hreturned : Action.returned?
      ((t.list path isRecursive cancel).perform (Memory.backend t.bucket) m).1 = some entries) :
    ∃ key, t.resolve path = .ok key ∧
      ((∀ e ∈ entries, ∀ part ∈ Key.parts e.name, part ≠ "") ↔
        isRecursive = false ∨
          ∀ rest, (m.bucket t.bucket).contents (Key.directoryPrefix key ++ rest) ≠ none →
            Key.IsTidy t.suffix rest) := by
  obtain ⟨-, -, hend⟩ := (ensures_list Memory.loud_refuses t path isRecursive cancel
    (b := m.bucket t.bucket)).run (Memory.backend_follows t.bucket)
  obtain ⟨key, hresolve, -, _, hgone, hshown⟩ :=
    hend entries (Action.returned?_eq_some hreturned)
  rw [List.append_nil] at hgone
  subst hgone
  refine ⟨key, hresolve, ?_⟩
  refine Iff.trans ?_ (DirectoryEntry.forall_served_hasName_iff t.settings.separator_not_mem
    t.settings.folderSuffix_ne)
  -- the entries are what the served names show, with the directories on the way
  constructor
  · intro h served hserved
    exact DirectoryEntry.forall_shownBy_hasName.1 fun e he =>
      h e ((hshown e).2 ⟨served, hserved, he⟩)
  · intro h e he
    obtain ⟨served, hserved, hmem⟩ := (hshown e).1 he
    exact DirectoryEntry.forall_shownBy_hasName.2 (h served hserved) e hmem

/-- A placeholder with superfluous separators, an object, and the marker of a directory. -/
def spaced : Memory := .ofObjects "b" [("d//e//", []), ("d/a", [1]), ("d/b_$folder$", [])]

/-- The superfluous separators are at the end of a key that ends with one, so they are trimmed: all
keys are tidy and all names proper. -/
theorem list_names_iff_spaced :
    Action.returned? ((keyByKey.list "/d" true none).perform (Memory.backend "b") spaced).1 =
      some [⟨"e", true⟩, ⟨"a", false⟩, ⟨"b", true⟩] ∧
    ∀ rest, (spaced.bucket "b").contents ("d/" ++ rest) ≠ none →
      Key.IsTidy "_$folder$" rest := by
  have hreturned : Action.returned?
      ((keyByKey.list "/d" true none).perform (Memory.backend "b") spaced).1 =
        some [⟨"e", true⟩, ⟨"a", false⟩, ⟨"b", true⟩] := by decide +kernel
  obtain ⟨key, hresolve, hiff⟩ := list_names_iff keyByKey "/d" true none spaced hreturned
  have hkey : keyByKey.resolve "/d" = .ok "d" := rfl
  obtain rfl := Except.ok.inj (hkey.symm.trans hresolve)
  have hunder : Key.directoryPrefix "d" = "d/" := by decide
  rw [hunder] at hiff
  have hnames : ∀ e ∈ [(⟨"e", true⟩ : DirectoryEntry), ⟨"a", false⟩, ⟨"b", true⟩],
      ∀ part ∈ Key.parts e.name, part ≠ "" := by decide
  exact ⟨hreturned, (hiff.1 hnames).resolve_left Bool.noConfusion⟩

/-- A bucket with the marker of a directory without a name. -/
def namelessMarker : Memory := .ofObjects "b" [("d/a/_$folder$", [])]

/-- A recursive listing shows the directory of that marker under the name `a/`; a listing of one
level does not. -/
theorem list_shows_separator :
    Action.returned? ((keyByKey.list "/d" true none).perform (Memory.backend "b")
      namelessMarker).1 = some [⟨"a", true⟩, ⟨"a/", true⟩] ∧
    Key.parts "a/" = ["a", ""] ∧
    Action.returned? ((keyByKey.list "/d" false none).perform (Memory.backend "b")
      namelessMarker).1 = some [⟨"a", true⟩] := by
  decide +kernel

end Tree

end BucketTree
