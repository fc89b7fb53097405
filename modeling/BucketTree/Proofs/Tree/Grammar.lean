import BucketTree.Proofs.Tree.Translation

/-!
# The grammar of paths

Without a root address, a text is a path exactly when it has no NUL character, does not contain
`://`, and has no part `.` or `..`. Two paths name the same key when they have the same names, and
the keys named are the canonical ones. On these `Path.toKey` and `Key.toPath` are inverse to each
other: the path of a canonical key names that key, and the path of the key that a path names is its
normal form (`Path.toKey_unrooted`).
-/

set_option autoImplicit false

namespace BucketTree

namespace Key

theorem names_eq_filter (text : String) :
    names text = (parts text).filter fun part => part ≠ "" := by
  rw [names_eq]
  refine List.filter_congr fun part _ => ?_
  rw [Bool.eq_iff_iff]
  simp

/-- The names of a text are its non-empty parts. -/
theorem mem_names {text name : String} : name ∈ names text ↔ name ∈ parts text ∧ name ≠ "" := by
  simp [names_eq_filter]

end Key

namespace Path

variable {raw : String} {l : List String}

/-- A part that a path may have. -/
def IsName (part : String) : Prop :=
  part ≠ "" ∧ '\x00' ∉ part.toList ∧ part ≠ "." ∧ part ≠ ".."

instance (part : String) : Decidable (IsName part) := inferInstanceAs (Decidable (_ ∧ _))

theorem isRelative_eq_false_iff {part : String} :
    isRelative part = false ↔ part ≠ "." ∧ part ≠ ".." := by
  simp [isRelative]

/-- A text that is a path: it has no NUL character, no address and no relative part. -/
structure IsProper (raw : String) : Prop where
  noNul : '\x00' ∉ raw.toList
  noAddress : ¬ "://".toList <:+: raw.toList
  noRelative : "." ∉ Key.parts raw ∧ ".." ∉ Key.parts raw

/-- No name is relative exactly when no part is, since an empty part is not relative. -/
theorem forall_names_isRelative :
    (∀ name ∈ Key.names raw, isRelative name = false) ↔
      "." ∉ Key.parts raw ∧ ".." ∉ Key.parts raw := by
  constructor
  · intro h
    have hdots : ∀ dots, dots ≠ "" → isRelative dots = true → dots ∉ Key.parts raw := by
      intro dots hne hdots hmem
      have hnot := h dots (Key.mem_names.2 ⟨hmem, hne⟩)
      rw [hdots] at hnot
      cases hnot
    exact ⟨hdots "." (by decide) rfl, hdots ".." (by decide) rfl⟩
  · rintro ⟨hdot, hdots⟩ name hname
    obtain ⟨hmem, -⟩ := Key.mem_names.1 hname
    rw [isRelative_eq_false_iff]
    exact ⟨fun heq => hdot (heq ▸ hmem), fun heq => hdots (heq ▸ hmem)⟩

/-- Without a root address, the accepted texts are the proper ones, and their segments are their
names. -/
theorem segments_unrooted_iff :
    segments (.text raw) "" = .ok l ↔ IsProper raw ∧ Key.names raw = l := by
  have haddress : Text.contains raw "://" = false ↔ ¬ "://".toList <:+: raw.toList :=
    Bool.eq_false_iff.trans (not_congr Text.occursIn_iff)
  constructor
  · intro h
    obtain ⟨_, hraw, hnul, hsegments⟩ := segments_eq_ok h
    obtain rfl := Value.text.inj hraw
    rw [segmentsOf_eq_ok_iff, withoutRoot_empty] at hsegments
    obtain ⟨hcontains, rfl, hrelative⟩ := hsegments
    exact ⟨⟨hnul, haddress.1 hcontains, forall_names_isRelative.1 hrelative⟩, rfl⟩
  · rintro ⟨hproper, rfl⟩
    rw [segments_text hproper.noNul, segmentsOf_eq_ok_iff, withoutRoot_empty]
    exact ⟨haddress.2 hproper.noAddress, rfl, forall_names_isRelative.2 hproper.noRelative⟩

/-- The names of a proper text are names, and have no separators. -/
theorem IsProper.isName (h : IsProper raw) :
    ∀ name ∈ Key.names raw, IsName name ∧ Key.separator ∉ name.toList := by
  intro name hname
  have hsegments := segments_unrooted_iff.2 ⟨h, rfl⟩
  rw [segments_text h.noNul] at hsegments
  obtain ⟨hne, hnul, hrelative, hseparator⟩ := mem_segmentsOf hsegments h.noNul name hname
  exact ⟨⟨hne, hnul, isRelative_eq_false_iff.1 hrelative⟩, hseparator⟩

theorem toKey_unrooted_iff {key : Key} :
    toKey (.text raw) "" = .ok key ↔
      IsProper raw ∧ Key.separatorText.intercalate (Key.names raw) = key := by
  constructor
  · intro h
    cases hl : segments (.text raw) "" with
    | error refusal => simp [toKey, hl, Except.map] at h
    | ok l =>
        obtain ⟨hproper, rfl⟩ := segments_unrooted_iff.1 hl
        simp only [toKey, hl, Except.map, Except.ok.injEq] at h
        exact ⟨hproper, h⟩
  · rintro ⟨hproper, rfl⟩
    simp [toKey, segments_unrooted_iff.2 ⟨hproper, rfl⟩, Except.map]

end Path

namespace Key

variable {key : Key} {l : List String}

/-- The root, or a key whose parts are all valid names. -/
def IsCanonical (key : Key) : Prop := key = root ∨ ∀ part ∈ parts key, Path.IsName part

instance (key : Key) : Decidable (IsCanonical key) := inferInstanceAs (Decidable (_ ∨ _))

/-- The key that names make is canonical. -/
theorem isCanonical_intercalate (h : ∀ name ∈ l, Path.IsName name ∧ separator ∉ name.toList) :
    IsCanonical (separatorText.intercalate l) := by
  rcases eq_or_ne l [] with rfl | hne
  · exact Or.inl rfl
  · refine Or.inr ?_
    rw [parts_intercalate hne fun name hname => (h name hname).2]
    exact fun name hname => (h name hname).1

/-- A canonical key is the join of its names. -/
theorem IsCanonical.intercalate_names (h : IsCanonical key) :
    separatorText.intercalate (names key) = key := by
  rcases h with rfl | hparts
  · rfl
  · rw [names_eq_parts fun part hpart => (hparts part hpart).1, intercalate_parts]

/-- A canonical key has no separators at its ends that its path could lose. -/
theorem IsCanonical.toPath_eq (h : IsCanonical key) : toPath key = "/" ++ key := by
  rcases h with rfl | hparts
  · rfl
  · rw [toPath, trim_eq_self fun part hpart => (hparts part hpart).1]
    rfl

/-- The path of a canonical key has the names of the key. -/
theorem IsCanonical.names_toPath (h : IsCanonical key) : names (toPath key) = names key := by
  rw [h.toPath_eq, names_separator_append]

/-- The names of a canonical key are names, and have no separators. -/
theorem IsCanonical.isName (h : IsCanonical key) :
    ∀ name ∈ names key, Path.IsName name ∧ separator ∉ name.toList := by
  rcases h with rfl | hparts
  · exact fun name hname => absurd hname List.not_mem_nil
  · intro name hname
    obtain ⟨hmem, -⟩ := mem_names.1 hname
    obtain ⟨text, htext, rfl⟩ := List.mem_map.1 hmem
    refine ⟨hparts _ hmem, ?_⟩
    rw [String.toList_ofList]
    exact (mem_splitOn htext).1

/-- The path of a canonical key is proper. -/
theorem IsCanonical.isProper (h : IsCanonical key) : Path.IsProper (toPath key) := by
  have hnames := h.isName
  have htext : toPath key = "/" ++ separatorText.intercalate (names key) := by
    rw [h.toPath_eq, h.intercalate_names]
  constructor
  case noNul =>
    rw [htext, String.toList_append, List.mem_append, not_or]
    exact ⟨by decide, not_mem_intercalate (by decide) fun name hname => (hnames name hname).1.2.1⟩
  case noAddress =>
    -- no name is empty, so no two separators stand next to each other
    have haddress : Text.contains (toPath key) "://" = false := by
      rw [htext]
      exact not_contains_address fun name hname => ⟨(hnames name hname).1.1, (hnames name hname).2⟩
    exact fun hmem => Bool.eq_false_iff.1 haddress (Text.occursIn_iff.2 hmem)
  case noRelative =>
    rw [← Path.forall_names_isRelative, h.names_toPath]
    exact fun name hname => Path.isRelative_eq_false_iff.2 (hnames name hname).1.2.2

end Key

namespace Path

variable {raw : String}

/-- The key of a proper text is canonical. -/
theorem IsProper.isCanonical (h : IsProper raw) :
    Key.IsCanonical (Key.separatorText.intercalate (Key.names raw)) :=
  Key.isCanonical_intercalate h.isName

/-- The path of a canonical key names that key. -/
theorem toKey_toPath {key : Key} (h : Key.IsCanonical key) :
    toKey (.text (Key.toPath key)) "" = .ok key := by
  rw [toKey_unrooted_iff, h.names_toPath]
  exact ⟨h.isProper, h.intercalate_names⟩

/-- The normal form of a text is the path of the key that it names. -/
theorem normalize_eq_toPath {key : Key} (h : toKey (.text raw) "" = .ok key) :
    normalize (.text raw) "" = .ok (Key.toPath key) := by
  obtain ⟨hproper, rfl⟩ := toKey_unrooted_iff.1 h
  rw [hproper.isCanonical.toPath_eq]
  simp [normalize, segments_unrooted_iff.2 ⟨hproper, rfl⟩, Except.map, Key.separatorText]

/-- The grammar of paths without a root address: the accepted texts, the texts that name the same
key, the keys that are named, and the two inverse laws. -/
theorem toKey_unrooted :
    (∀ raw, (∃ key, toKey (.text raw) "" = .ok key) ↔
      '\x00' ∉ raw.toList ∧ ¬ "://".toList <:+: raw.toList ∧
        "." ∉ Key.parts raw ∧ ".." ∉ Key.parts raw) ∧
    (∀ raw raw' key key', toKey (.text raw) "" = .ok key → toKey (.text raw') "" = .ok key' →
      (key = key' ↔
        (Key.parts raw).filter (· ≠ "") = (Key.parts raw').filter (· ≠ ""))) ∧
    (∀ key, (∃ raw, toKey (.text raw) "" = .ok key) ↔ Key.IsCanonical key) ∧
    (∀ key, Key.IsCanonical key → toKey (.text (Key.toPath key)) "" = .ok key) ∧
    ∀ raw key, toKey (.text raw) "" = .ok key →
      normalize (.text raw) "" = .ok (Key.toPath key) := by
  refine ⟨fun raw => ?_, fun raw raw' key key' h h' => ?_, fun key => ?_,
    fun key => toKey_toPath, fun raw key => normalize_eq_toPath⟩
  · constructor
    · rintro ⟨key, hkey⟩
      obtain ⟨hproper, -⟩ := toKey_unrooted_iff.1 hkey
      exact ⟨hproper.noNul, hproper.noAddress, hproper.noRelative⟩
    · rintro ⟨hnul, haddress, hrelative⟩
      exact ⟨_, toKey_unrooted_iff.2 ⟨⟨hnul, haddress, hrelative⟩, rfl⟩⟩
  · obtain ⟨hproper, rfl⟩ := toKey_unrooted_iff.1 h
    obtain ⟨hproper', rfl⟩ := toKey_unrooted_iff.1 h'
    -- names hold no separators, so a key tells the names it is made of
    rw [Key.intercalate_inj (fun name hname => (hproper.isName name hname).imp And.left id)
      (fun name hname => (hproper'.isName name hname).imp And.left id),
      Key.names_eq_filter, Key.names_eq_filter]
  · constructor
    · rintro ⟨raw, hraw⟩
      obtain ⟨hproper, rfl⟩ := toKey_unrooted_iff.1 hraw
      exact hproper.isCanonical
    · exact fun hkey => ⟨_, toKey_toPath hkey⟩

/-- A path with repeated separators, and one with a relative part. -/
theorem toKey_unrooted_separators :
    toKey "/a//b/" "" = .ok "a/b" ∧ Key.IsCanonical "a/b" ∧
    toKey (.text (Key.toPath "a/b")) "" = .ok "a/b" ∧
    normalize "/a//b/" "" = .ok (Key.toPath "a/b") ∧
    ¬ ∃ key, toKey "/a/./b" "" = .ok key := by
  obtain ⟨haccepted, -, hcanonical, htoPath, hnormalize⟩ := toKey_unrooted
  have hkey : toKey "/a//b/" "" = .ok "a/b" := rfl
  have hab : Key.IsCanonical "a/b" := (hcanonical "a/b").1 ⟨"/a//b/", hkey⟩
  refine ⟨hkey, hab, htoPath _ hab, hnormalize _ _ hkey, fun hdot => ?_⟩
  obtain ⟨-, -, hnot, -⟩ := (haccepted "/a/./b").1 hdot
  exact hnot (by decide)

end Path

end BucketTree
