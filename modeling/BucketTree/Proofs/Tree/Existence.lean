import BucketTree.Proofs.Tree.Entries

/-!
# Directories that are not listed

A listing says that a directory does not exist when it has collected no entries and found no marker.
`isDirectory` looks for keys, not for entries: some key below is enough. The two differ exactly when
all keys below are *blank*, so that none of them shows an entry; an example is the placeholder with
the key of the directory and a separator, as other tools leave it. Such a directory is *hollow*:
`isDirectory` finds it and `list` refuses it (`list_refused_iff`).
-/

set_option autoImplicit false

namespace BucketTree

/-- A rest of a key after the prefix of the listed directory that shows no entry: the bare suffix of
a marker, or a name that is empty once its separators are trimmed. A listing of one level looks at
the name up to the first separator. -/
def Key.IsBlank (suffix : String) (isRecursive : Bool) (rest : String) : Prop :=
  rest = suffix ∨
    if isRecursive then ∀ c ∈ rest.toList, c = Key.separator
    else rest = "" ∨ ∃ tail, rest = "/" ++ tail

namespace DirectoryEntry

variable {suffix under rest : String}

theorem directory?_eq_none {name : String} :
    directory? name = none ↔ ∀ c ∈ name.toList, c = Key.separator := by
  rw [← Text.trim_eq_empty, ← String.isEmpty_iff]
  unfold directory?
  dsimp only
  cases (Text.trim Key.separator name).isEmpty <;> simp

/-- A text of separators only is empty or ends with a separator. -/
theorem open_of_separators (h : ∀ c ∈ rest.toList, c = Key.separator) :
    (rest.isEmpty || Text.endsWith rest Key.separatorText) = true := by
  rcases List.eq_nil_or_concat' rest.toList with hnil | ⟨init, last, hlist⟩
  · rw [String.isEmpty_iff.2 (String.toList_eq_nil_iff.1 hnil)]
    rfl
  · have hlast : last = Key.separator := h last (hlist ▸ List.mem_append_right _ List.mem_cons_self)
    rw [Bool.or_eq_true]
    refine Or.inr (Text.endsWith_iff.2 ⟨String.ofList init, ?_⟩)
    rw [← String.toList_inj, hlist, hlast]
    simp [Key.separatorText, Key.separator]

/-- The keys that show no entry are the bare suffix and the texts of separators only. -/
theorem ofKey?_eq_none (hsuffix : Key.separator ∉ suffix.toList) (hne : suffix ≠ "") :
    ofKey? suffix under (under ++ rest) = none ↔
      rest = suffix ∨ ∀ c ∈ rest.toList, c = Key.separator := by
  unfold ofKey?
  rw [Text.dropFirst_append]
  dsimp only
  split
  next hopen =>
    -- a name that is empty or ends with a separator is not the suffix
    rw [directory?_eq_none, or_iff_right]
    rintro rfl
    rcases Bool.or_eq_true_iff.1 hopen with hempty | hends
    · exact hne (String.isEmpty_iff.1 hempty)
    · obtain ⟨head, rfl⟩ := Text.endsWith_iff.1 hends
      exact hsuffix (by simp [Key.separatorText, Key.separator])
  next hclosed =>
    rw [or_iff_left fun hall => hclosed (open_of_separators hall)]
    split
    next hmarker =>
      obtain ⟨dir, rfl⟩ := Key.isMarker_iff.1 hmarker
      rw [Key.withoutSuffix_append]
      by_cases hdir : dir = ""
      · rw [if_pos (String.isEmpty_iff.2 hdir), hdir, String.empty_append]
        exact iff_of_true rfl rfl
      · rw [if_neg fun hempty => hdir (String.isEmpty_iff.1 hempty)]
        refine iff_of_false (Option.some_ne_none _) fun hsame => hdir ?_
        exact (String.append_left_inj suffix).1 (hsame.trans String.empty_append.symm)
    next hmarker =>
      refine iff_of_false (Option.some_ne_none _) ?_
      rintro rfl
      exact hmarker (Key.isMarker_iff.2 ⟨"", String.empty_append.symm⟩)

/-- A group shows no entry exactly when its name is empty. -/
theorem ofGroup?_eq_none {name : String} (hname : Key.separator ∉ name.toList) :
    ofGroup? under (under ++ (name ++ "/")) = none ↔ name = "" := by
  constructor
  · intro hnone
    by_contra hne
    rw [ofGroup?_append hname hne] at hnone
    cases hnone
  · rintro rfl
    unfold ofGroup?
    rw [Text.dropFirst_append, directory?_eq_none]
    simp [Key.separator]

/-- A served name shows nothing exactly when it has no entry of its own. -/
theorem shownBy_eq_nil {isRecursive : Bool} {served : ServedName} :
    shownBy suffix under isRecursive served = [] ↔ ofServed? suffix under served = none := by
  unfold shownBy
  cases ofServed? suffix under served with
  | none => exact iff_of_true rfl rfl
  | some entry =>
      refine iff_of_false ?_ (Option.some_ne_none _)
      unfold withAncestors
      split <;> simp

/-- The served name that represents a key shows nothing exactly when the key is blank. -/
theorem shows_nothing_iff {isRecursive : Bool} (hsuffix : Key.separator ∉ suffix.toList)
    (hne : suffix ≠ "") :
    (∃ served, ServedName.Represents under (if isRecursive then "" else Key.separatorText) served
        (under ++ rest) ∧ shownBy suffix under isRecursive served = []) ↔
      Key.IsBlank suffix isRecursive rest := by
  unfold Key.IsBlank
  cases isRecursive with
  | true =>
      rw [if_pos rfl, if_pos rfl, ServedName.exists_represents (.key rest (Or.inl rfl)),
        shownBy_eq_nil, ofServed?_key]
      exact ofKey?_eq_none hsuffix hne
  | false =>
      rw [if_neg Bool.false_ne_true, if_neg Bool.false_ne_true]
      rcases Key.exists_first rest with hrest | ⟨name, tail, rfl, hname⟩
      · -- the key serves by itself
        rw [ServedName.exists_represents (represents_key hrest), shownBy_eq_nil,
          ofServed?_key, ofKey?_eq_none hsuffix hne]
        refine or_congr_right ⟨fun hall => Or.inl ?_, ?_⟩
        · refine String.toList_eq_nil_iff.1 (List.eq_nil_iff_forall_not_mem.2 fun c hc => ?_)
          exact hrest (hall c hc ▸ hc)
        · rintro (rfl | ⟨tail, rfl⟩)
          · exact nofun
          · exact absurd (by simp [Key.separator]) hrest
      · -- it is served by the group of what comes before its first separator
        rw [ServedName.exists_represents (represents_group hname), shownBy_eq_nil,
          ofServed?_group, ofGroup?_eq_none hname]
        constructor
        · rintro rfl
          exact Or.inr (Or.inr ⟨tail, by rw [String.empty_append]⟩)
        · rintro (hblank | hblank | ⟨tail', hblank⟩)
          · rw [← hblank] at hsuffix
            exact absurd (by simp [Key.separator]) hsuffix
          · exact absurd (congrArg String.toList hblank) (by simp)
          · exact Key.first_eq hname List.not_mem_nil
              (hblank.trans (by rw [String.empty_append]))

end DirectoryEntry

/-- A finished listing has no entries exactly when none of its served names shows one. -/
theorem Collecting.eq_nil_iff {suffix under : String} {isRecursive : Bool}
    {names : List ServedName} {entries : List DirectoryEntry}
    (h : Collecting suffix under isRecursive names [] entries) :
    entries = [] ↔
      ∀ served ∈ names, DirectoryEntry.shownBy suffix under isRecursive served = [] := by
  obtain ⟨-, gone, rfl, hshown⟩ := h
  rw [List.append_nil]
  simp only [List.eq_nil_iff_forall_not_mem, hshown]
  constructor
  · intro hnone served hserved e he
    exact hnone e ⟨served, hserved, he⟩
  · rintro hnone e ⟨served, hserved, he⟩
    exact hnone served hserved e he

/-- The served names show nothing exactly when all keys below the directory are blank. -/
theorem forall_shownBy_eq_nil {suffix under : String} {isRecursive : Bool} {b : Bucket}
    (hsuffix : Key.separator ∉ suffix.toList) (hne : suffix ≠ "") :
    (∀ served ∈ b.servedNames under (if isRecursive then "" else Key.separatorText),
      DirectoryEntry.shownBy suffix under isRecursive served = []) ↔
    ∀ rest, b.contents (under ++ rest) ≠ none → Key.IsBlank suffix isRecursive rest := by
  constructor
  · intro hnone rest hpresent
    have hrepresents := ServedName.represents_ofKey under
      (if isRecursive then "" else Key.separatorText) rest
    exact (DirectoryEntry.shows_nothing_iff hsuffix hne).1
      ⟨_, hrepresents, hnone _ (Bucket.mem_servedNames.2 ⟨_, hpresent, hrepresents⟩)⟩
  · intro hblank served hserved
    obtain ⟨_, hpresent, hrepresents⟩ := Bucket.mem_servedNames.1 hserved
    obtain ⟨rest, rfl⟩ := hrepresents.beginsWith
    obtain ⟨other, hother, hnil⟩ :=
      (DirectoryEntry.shows_nothing_iff hsuffix hne).2 (hblank rest hpresent)
    rwa [← ServedName.ofKey_eq_of_represents hrepresents,
      ServedName.ofKey_eq_of_represents hother]

namespace Directory

/-- A directory other than the root that has no marker and only blank keys below it. -/
structure IsHollow (suffix : String) (key : Key) (isRecursive : Bool) (contents : Contents) :
    Prop where
  ne_root : key ≠ Key.root
  no_marker : contents (key ++ suffix) = none
  below : ∃ rest, contents (Key.directoryPrefix key ++ rest) ≠ none
  blank : ∀ rest, contents (Key.directoryPrefix key ++ rest) ≠ none →
    Key.IsBlank suffix isRecursive rest

variable {suffix : String} {key : Key} {isRecursive : Bool} {contents : Contents}

/-- A hollow directory exists. -/
theorem IsHollow.isAt (h : IsHollow suffix key isRecursive contents) : IsAt suffix key contents :=
  Or.inr (Or.inr h.below)

/-- Without a marker and with blank keys only, the directory does not exist or is hollow. -/
theorem not_isAt_or_isHollow (hroot : key ≠ Key.root) (hmarker : contents (key ++ suffix) = none)
    (hblank : ∀ rest, contents (Key.directoryPrefix key ++ rest) ≠ none →
      Key.IsBlank suffix isRecursive rest) :
    ¬ IsAt suffix key contents ∨ IsHollow suffix key isRecursive contents := by
  by_cases hbelow : ∃ rest, contents (Key.directoryPrefix key ++ rest) ≠ none
  · exact Or.inr ⟨hroot, hmarker, hbelow, hblank⟩
  · refine Or.inl ?_
    rintro (h | h | h)
    · exact hroot h
    · exact h hmarker
    · exact hbelow h

end Directory

namespace Tree

/-- In memory, a query with a positive page size and without a token does not fail. -/
theorem not_queryMayFail {size : Int} (hsize : 1 ≤ size) :
    ¬ QueryMayFail Memory.refuses (.int size) none := by
  rintro (⟨key, fault, hhead⟩ | hcancel | ⟨request, fault, hmax, -, hrefused⟩)
  · exact hhead
  · exact hcancel rfl
  · exact absurd (hrefused size hmax) (Int.not_lt.2 hsize)

variable {t : Tree} {path : Value} {key : Key} {m : Memory}

/-- In memory, `isDirectory` is true exactly when the directory exists. -/
theorem isDirectory_eq (hresolve : t.resolve path = .ok key) :
    ∃ found, ((t.isDirectory path).perform (Memory.backend t.bucket) m).1 = some (.ok found) ∧
      (found = true ↔ Directory.IsAt t.suffix key (m.bucket t.bucket).contents) := by
  have hquery : (t.isDirectory path).Ensures (Bucket.environment Memory.refuses)
      (fun q _ => q.isQuery) (fun r _ => ∃ found, r = some (.ok found) ∧
        (found = true ↔ Directory.IsAt t.suffix key (m.bucket t.bucket).contents))
      (m.bucket t.bucket) := by
    apply ensures_isDirectory Memory.loud_refuses hresolve (fun _ hquery => hquery)
    · exact fun hat => ⟨true, rfl, iff_of_true rfl hat⟩
    · exact fun hnot => ⟨false, rfl, iff_of_false Bool.false_ne_true hnot⟩
    · exact fun _ _ hmay => absurd hmay (not_queryMayFail (Int.le_refl 1))
  exact (hquery.run (Memory.backend_follows t.bucket)).2

/-- In memory, a listing returns entries, or it says `notFound` of a directory that does not exist
or is hollow. -/
theorem list_settled (isRecursive : Bool) {n : Int} (hresolve : t.resolve path = .ok key)
    (hchunk : t.settings.chunkLength = .int n)
    (hpages : (m.bucket t.bucket).keys.length + 2 ≤ t.pageLimit) :
    (∃ entries, ((t.list path isRecursive none).perform (Memory.backend t.bucket) m).1 =
        some (.ok entries) ∧ Directory.IsAt t.suffix key (m.bucket t.bucket).contents ∧
        ¬ Directory.IsHollow t.suffix key isRecursive (m.bucket t.bucket).contents) ∨
      ((t.list path isRecursive none).perform (Memory.backend t.bucket) m).1 =
        some (.error (.known (.notFound key (.noSuchDirectory key)))) ∧
        (¬ Directory.IsAt t.suffix key (m.bucket t.bucket).contents ∨
          Directory.IsHollow t.suffix key isRecursive (m.bucket t.bucket).contents) := by
  have hsuffix : Key.separator ∉ t.suffix.toList := t.settings.separator_not_mem
  have hne : t.suffix ≠ "" := t.settings.folderSuffix_ne
  have hlist : (t.list path isRecursive none).Ensures (Bucket.environment Memory.refuses)
      (fun q _ => q.isQuery) (fun r _ =>
        (∃ entries, r = some (.ok entries) ∧
          Directory.IsAt t.suffix key (m.bucket t.bucket).contents ∧
          ¬ Directory.IsHollow t.suffix key isRecursive (m.bucket t.bucket).contents) ∨
        r = some (.error (.known (.notFound key (.noSuchDirectory key)))) ∧
          (¬ Directory.IsAt t.suffix key (m.bucket t.bucket).contents ∨
            Directory.IsHollow t.suffix key isRecursive (m.bucket t.bucket).contents))
      (m.bucket t.bucket) := by
    apply ensures_listed Memory.loud_refuses hresolve
    · intro entries hcollecting hnil
      refine Or.inl ⟨entries, rfl, ?_⟩
      by_cases hempty : entries = []
      · -- an empty listing is that of the root or of a directory with a marker
        rcases hnil hempty with hroot | hmarker
        · exact ⟨Or.inl hroot, fun hhollow => hhollow.ne_root hroot⟩
        · exact ⟨Or.inr (Or.inl hmarker), fun hhollow => hmarker hhollow.no_marker⟩
      · rw [hcollecting.eq_nil_iff, forall_shownBy_eq_nil hsuffix hne] at hempty
        refine ⟨Or.inr (Or.inr ?_), fun hhollow => hempty hhollow.blank⟩
        by_contra hnone
        exact hempty fun rest hpresent => absurd ⟨rest, hpresent⟩ hnone
    · intro hcollecting hroot hmarker
      have hblank := (forall_shownBy_eq_nil hsuffix hne).1 (hcollecting.eq_nil_iff.1 rfl)
      exact Or.inr ⟨rfl, Directory.not_isAt_or_isHollow hroot hmarker hblank⟩
    · intro failure _ hmay
      rw [hchunk] at hmay
      exact absurd hmay (not_queryMayFail (t.settings.one_le_of_chunkLength_eq hchunk))
    · intro hfew
      have hlength := (m.bucket t.bucket).length_servedNames_le (Key.directoryPrefix key)
        (if isRecursive then "" else Key.separatorText)
      omega
  exact (hlist.run (Memory.backend_follows t.bucket)).2

/-- In memory, a listing says `notFound` exactly when the directory does not exist or is hollow, and
returns entries otherwise. -/
theorem list_refused_iff (t : Tree) (path : Value) (isRecursive : Bool) (m : Memory) {key : Key}
    {n : Int} (hresolve : t.resolve path = .ok key) (hchunk : t.settings.chunkLength = .int n)
    (hpages : (m.bucket t.bucket).keys.length + 2 ≤ t.pageLimit) :
    ∃ outcome found,
      ((t.list path isRecursive none).perform (Memory.backend t.bucket) m).1 = some outcome ∧
      ((t.isDirectory path).perform (Memory.backend t.bucket) m).1 = some (.ok found) ∧
      ((∃ entries, outcome = .ok entries) ∨
        outcome = .error (.known (.notFound key (.noSuchDirectory key)))) ∧
      (outcome = .error (.known (.notFound key (.noSuchDirectory key))) ↔
        found = false ∨
          Directory.IsHollow t.suffix key isRecursive (m.bucket t.bucket).contents) := by
  obtain ⟨found, hfound, hat⟩ := isDirectory_eq (m := m) hresolve
  rcases list_settled isRecursive hresolve hchunk hpages with
    ⟨entries, hlisted, hthere, hnotHollow⟩ | ⟨hrefused, hreason⟩
  · refine ⟨_, found, hlisted, hfound, Or.inl ⟨entries, rfl⟩, iff_of_false nofun ?_⟩
    rintro (hmissing | hhollow)
    · rw [hat.2 hthere] at hmissing
      cases hmissing
    · exact hnotHollow hhollow
  · refine ⟨_, found, hrefused, hfound, Or.inr rfl, iff_of_true rfl ?_⟩
    refine hreason.imp_left fun hnot => ?_
    rw [← Bool.not_eq_true, hat]
    exact hnot

/-- A bucket with the placeholder `d/` only. -/
def husk : Memory := .ofObjects "b" [("d/", [])]

theorem list_refused_iff_husk :
    keyByKey.resolve "/d" = .ok "d" ∧ (husk.bucket "b").keys.length + 2 ≤ keyByKey.pageLimit ∧
    ∃ outcome found,
      ((keyByKey.list "/d" false none).perform (Memory.backend "b") husk).1 = some outcome ∧
      ((keyByKey.isDirectory "/d").perform (Memory.backend "b") husk).1 = some (.ok found) ∧
      ((∃ entries, outcome = .ok entries) ∨
        outcome = .error (.known (.notFound "d" (.noSuchDirectory "d")))) ∧
      (outcome = .error (.known (.notFound "d" (.noSuchDirectory "d"))) ↔
        found = false ∨ Directory.IsHollow "_$folder$" "d" false (husk.bucket "b").contents) := by
  have hpages : (husk.bucket "b").keys.length + 2 ≤ keyByKey.pageLimit := by decide +kernel
  exact ⟨rfl, hpages, list_refused_iff keyByKey "/d" false husk rfl rfl hpages⟩

/-- The operation `isDirectory` finds the directory of the placeholder, and `list` says that it does
not exist. -/
theorem list_refuses_husk :
    ((keyByKey.isDirectory "/d").perform (Memory.backend "b") husk).1 = some (.ok true) ∧
    ((keyByKey.list "/d" false none).perform (Memory.backend "b") husk).1 =
      some (.error (.known (.notFound "d" (.noSuchDirectory "d")))) ∧
    ((keyByKey.list "/d" true none).perform (Memory.backend "b") husk).1 =
      some (.error (.known (.notFound "d" (.noSuchDirectory "d")))) := by
  refine ⟨?_, ?_, ?_⟩
  · rfl
  · rfl
  · rfl

end Tree

end BucketTree
