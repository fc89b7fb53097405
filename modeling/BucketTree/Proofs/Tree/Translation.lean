import BucketTree.Proofs.Store.Answers
import BucketTree.Proofs.Tree.Paths
import BucketTree.Tree.Access

/-!
# Translating paths and keys

The names of a text are its non-empty parts. The segments of an accepted path are its names, without
those of the root address if the path is under it. The canonical path of a key has the names of the
key, so it is accepted under every root address. It names the same key again unless it is itself
under the root address, which is then stripped once more (`Path.normalize_again_iff`). For the same
reason, a path names its key without a root address exactly when it is not under the root address
(`Path.toKey_whole_iff`).
-/

set_option autoImplicit false

namespace BucketTree

/-! ## Names -/

namespace Key

/-- The names of a text: its non-empty parts. -/
def names (text : String) : List String := (segments text.toList).map String.ofList

theorem names_eq (text : String) : names text = (parts text).filter fun part => !part.isEmpty := by
  unfold names segments parts
  rw [List.filter_map]
  refine congrArg (List.map String.ofList) (List.filter_congr fun part _ => ?_)
  cases part with
  | nil => rfl
  | cons c rest => simp

@[simp]
theorem names_append (a b : String) : names (a ++ "/" ++ b) = names a ++ names b := by
  rw [names_eq, names_eq, names_eq, parts_append, List.filter_append]

/-- A leading separator adds no name. -/
theorem names_separator_append (text : String) : names ("/" ++ text) = names text :=
  names_append "" text

/-- The names of a text without empty parts are its parts. -/
theorem names_eq_parts {text : String} (h : ∀ part ∈ parts text, part ≠ "") :
    names text = parts text := by
  rw [names_eq, List.filter_eq_self]
  intro part hpart
  simpa using h part hpart

/-- A single name is its only name. -/
theorem names_of_not_mem {name : String} (hne : name ≠ "") (h : separator ∉ name.toList) :
    names name = [name] := by
  have hparts := parts_of_not_mem h
  rw [names_eq_parts, hparts]
  rw [hparts, List.forall_mem_singleton]
  exact hne

/-- A non-empty text that does not end with a separator has a name. -/
theorem names_ne_nil {text : String} (hne : text ≠ "")
    (hlast : text.toList.getLast? ≠ some separator) : names text ≠ [] := by
  rcases exists_last text with hnot | ⟨before, name, rfl, hname⟩
  · rw [names_of_not_mem hne hnot]
    exact List.cons_ne_nil _ _
  · have hname_ne : name ≠ "" := by
      rintro rfl
      apply hlast
      simp [separator]
    rw [names_append, names_of_not_mem hname_ne hname]
    exact List.append_ne_nil_of_right_ne_nil _ (List.cons_ne_nil _ _)

/-- The names of a joined key are the names that were joined. -/
theorem names_intercalate {l : List String}
    (h : ∀ name ∈ l, name ≠ "" ∧ separator ∉ name.toList) :
    names (separatorText.intercalate l) = l := by
  by_cases hnil : l = []
  · rw [hnil]
    rfl
  · have hparts := parts_intercalate hnil fun name hname => (h name hname).2
    rw [names_eq_parts, hparts]
    rw [hparts]
    exact fun name hname => (h name hname).1

/-- Lists of names are determined by the keys that they are joined to. -/
theorem intercalate_inj {l l' : List String}
    (h : ∀ name ∈ l, name ≠ "" ∧ separator ∉ name.toList)
    (h' : ∀ name ∈ l', name ≠ "" ∧ separator ∉ name.toList) :
    separatorText.intercalate l = separatorText.intercalate l' ↔ l = l' := by
  refine ⟨fun heq => ?_, congrArg _⟩
  rw [← names_intercalate h, heq, names_intercalate h']

/-- The rest of a joined key after a prefix is the join of its names. -/
theorem intercalate_names_below {l : List String} {above rest : String}
    (h : ∀ name ∈ l, name ≠ "" ∧ separator ∉ name.toList)
    (heq : separatorText.intercalate l = above ++ "/" ++ rest) :
    separatorText.intercalate (names rest) = rest := by
  have hnil : l ≠ [] := by
    rintro rfl
    rw [String.intercalate_nil] at heq
    exact absurd (String.append_eq_empty_iff.1 (String.append_eq_empty_iff.1 heq.symm).1).2
      (by decide)
  have hparts := parts_append above rest
  rw [← heq, parts_intercalate hnil fun name hname => (h name hname).2] at hparts
  rw [names_eq_parts, intercalate_parts]
  intro part hpart
  refine (h part ?_).1
  rw [hparts]
  exact List.mem_append_right _ hpart

/-- The characters of a joined key are separators and characters of its names. -/
theorem not_mem_intercalate {c : Char} {l : List String} (hc : c ≠ separator)
    (h : ∀ name ∈ l, c ∉ name.toList) : c ∉ (separatorText.intercalate l).toList := by
  induction l with
  | nil => exact List.not_mem_nil
  | cons name rest ih =>
      obtain ⟨hname, hrest⟩ := List.forall_mem_cons.1 h
      cases rest with
      | nil => rwa [String.intercalate_singleton]
      | cons next others =>
          have hseparator : c ∉ separatorText.toList := fun hmem => hc (List.mem_singleton.1 hmem)
          rw [String.intercalate_cons_cons, String.toList_append, String.toList_append,
            List.mem_append, List.mem_append, not_or, not_or]
          exact ⟨⟨hname, hseparator⟩, ih hrest⟩

/-- A canonical path does not contain `://`, as no two of its separators are adjacent. -/
theorem not_contains_address {l : List String}
    (h : ∀ name ∈ l, name ≠ "" ∧ separator ∉ name.toList) :
    Text.contains ("/" ++ separatorText.intercalate l) "://" = false := by
  have hroot : parts "" = [""] := parts_of_not_mem List.not_mem_nil
  refine Bool.eq_false_iff.2 fun hcontains => ?_
  obtain ⟨before, behind, htext⟩ := Text.contains_iff.1 hcontains
  have hsplit : "" ++ "/" ++ separatorText.intercalate l =
      before ++ ":" ++ "/" ++ ("" ++ "/" ++ behind) := by
    rw [String.empty_append, htext, ← String.toList_inj]
    simp
  -- the part between the two separators is empty, and it is not the first one
  have hparts := congrArg parts hsplit
  rw [parts_append, parts_append, parts_append, hroot] at hparts
  cases hbefore : parts (before ++ ":") with
  | nil => exact parts_ne_nil _ hbefore
  | cons first rest =>
      rw [hbefore] at hparts
      have hrest : parts (separatorText.intercalate l) = rest ++ "" :: parts behind :=
        (List.cons.inj hparts).2
      by_cases hnil : l = []
      · rw [hnil, String.intercalate_nil, hroot] at hrest
        have hlength := congrArg List.length hrest
        have hbehind := List.length_pos_of_ne_nil (parts_ne_nil behind)
        simp only [List.length_append, List.length_cons, List.length_nil] at hlength
        omega
      · rw [parts_intercalate hnil fun name hname => (h name hname).2] at hrest
        refine (h "" ?_).1 rfl
        rw [hrest]
        exact List.mem_append_right _ List.mem_cons_self

end Key

/-! ## Root addresses -/

namespace Path

variable {base path raw root : String} {l : List String}

/-- The path is `base`, or lies below it. -/
def IsUnder (base path : String) : Prop :=
  base ≠ "" ∧ (path = base ∨ ∃ rest, path = base ++ "/" ++ rest)

theorem isUnder_iff : IsUnder base path ↔
    (!base.isEmpty && (path == base || Text.beginsWith path (base ++ Key.separatorText))) =
      true := by
  have hbegins : Text.beginsWith path (base ++ Key.separatorText) = true ↔
      ∃ rest, path = base ++ "/" ++ rest := Text.beginsWith_iff
  have hempty : (!base.isEmpty) = true ↔ base ≠ "" := by simp
  rw [Bool.and_eq_true, Bool.or_eq_true, hbegins, beq_iff_eq, hempty]
  rfl

/-- The function `withoutRoot` strips the root address, if the path goes on with a separator or ends
there. -/
theorem withoutRoot_of_append {rest : String} (hroot : Text.trimEnd Key.separator root ≠ "")
    (hrest : rest = "" ∨ ∃ tail, rest = "/" ++ tail) :
    withoutRoot (Text.trimEnd Key.separator root ++ rest) root = rest := by
  have hunder : IsUnder (Text.trimEnd Key.separator root)
      (Text.trimEnd Key.separator root ++ rest) := by
    refine ⟨hroot, ?_⟩
    obtain rfl | ⟨tail, rfl⟩ := hrest
    · exact Or.inl String.append_empty
    · exact Or.inr ⟨tail, String.append_assoc.symm⟩
  exact (if_pos (isUnder_iff.1 hunder)).trans (Text.dropFirst_append _ _)

/-- For a path under the root address, `withoutRoot` returns the rest, which is empty or starts with
a separator. -/
theorem withoutRoot_of_isUnder (h : IsUnder (Text.trimEnd Key.separator root) path) :
    path = Text.trimEnd Key.separator root ++ withoutRoot path root ∧
      (withoutRoot path root = "" ∨ ∃ rest, withoutRoot path root = "/" ++ rest) := by
  obtain ⟨rest, hpath, hrest⟩ : ∃ rest, path = Text.trimEnd Key.separator root ++ rest ∧
      (rest = "" ∨ ∃ tail, rest = "/" ++ tail) := by
    obtain ⟨-, heq | ⟨tail, heq⟩⟩ := h
    · exact ⟨"", heq.trans String.append_empty.symm, Or.inl rfl⟩
    · exact ⟨"/" ++ tail, heq.trans String.append_assoc, Or.inr ⟨tail, rfl⟩⟩
  rw [hpath, withoutRoot_of_append h.1 hrest]
  exact ⟨rfl, hrest⟩

theorem withoutRoot_of_not_isUnder (h : ¬ IsUnder (Text.trimEnd Key.separator root) path) :
    withoutRoot path root = path :=
  if_neg fun hunder => h (isUnder_iff.2 hunder)

/-- The function `withoutRoot` leaves a path alone exactly when it is not under the root address. -/
theorem withoutRoot_eq_self_iff :
    withoutRoot path root = path ↔ ¬ IsUnder (Text.trimEnd Key.separator root) path := by
  refine ⟨fun hself hunder => ?_, withoutRoot_of_not_isUnder⟩
  obtain ⟨hpath, -⟩ := withoutRoot_of_isUnder hunder
  rw [hself, ← String.toList_inj, String.toList_append, List.self_eq_append_left] at hpath
  exact hunder.1 (String.toList_eq_nil_iff.1 hpath)

/-- The function `withoutRoot` returns a suffix of the path. -/
theorem exists_eq_append_withoutRoot (path root : String) :
    ∃ before, path = before ++ withoutRoot path root := by
  by_cases h : IsUnder (Text.trimEnd Key.separator root) path
  · exact ⟨_, (withoutRoot_of_isUnder h).1⟩
  · exact ⟨"", by rw [withoutRoot_of_not_isUnder h, String.empty_append]⟩

/-- The names of a path under the root address are those of the address followed by those of the
rest. -/
theorem names_of_isUnder (h : IsUnder (Text.trimEnd Key.separator root) path) :
    Key.names path =
      Key.names (Text.trimEnd Key.separator root) ++ Key.names (withoutRoot path root) := by
  obtain ⟨hpath, hrest | ⟨rest, hrest⟩⟩ := withoutRoot_of_isUnder h
  · have hnone : Key.names "" = [] := rfl
    rw [hrest, String.append_empty] at hpath
    rw [hrest, hnone, List.append_nil, hpath]
  · rw [hrest, ← String.append_assoc] at hpath
    rw [hrest, Key.names_separator_append]
    exact (congrArg Key.names hpath).trans (Key.names_append _ _)

/-- The names of the rest are names of the path. -/
theorem mem_names_of_withoutRoot {name : String} (h : name ∈ Key.names (withoutRoot path root)) :
    name ∈ Key.names path := by
  by_cases hunder : IsUnder (Text.trimEnd Key.separator root) path
  · rw [names_of_isUnder hunder]
    exact List.mem_append_right _ h
  · rwa [withoutRoot_of_not_isUnder hunder] at h

/-- The function `withoutRoot` keeps the names of a path exactly when it leaves the path alone. -/
theorem names_withoutRoot_eq_iff :
    Key.names (withoutRoot path root) = Key.names path ↔ withoutRoot path root = path := by
  refine ⟨fun hnames => ?_, congrArg Key.names⟩
  rw [withoutRoot_eq_self_iff]
  intro hunder
  -- the address does not end with a separator, so it has a name, which the rest lacks
  rw [names_of_isUnder hunder, List.self_eq_append_left] at hnames
  exact Key.names_ne_nil hunder.1 (Text.getLast?_trimEnd _ _) hnames

/-! ## Segments -/

/-- A text is accepted when its rest after the root address contains no `://` and no relative names,
and its segments are the names of that rest. -/
theorem segmentsOf_eq_ok_iff : segmentsOf raw root = .ok l ↔
    Text.contains (withoutRoot raw root) "://" = false ∧
      Key.names (withoutRoot raw root) = l ∧ ∀ name ∈ l, isRelative name = false := by
  have hnames : (Key.segments (withoutRoot raw root).toList).map String.ofList =
      Key.names (withoutRoot raw root) := rfl
  unfold segmentsOf
  dsimp only
  rw [hnames]
  generalize withoutRoot raw root = inner
  split
  next haddress => simp [haddress]
  next haddress =>
    rw [Bool.not_eq_true] at haddress
    split
    next segment hfind =>
      refine iff_of_false (fun h => by cases h) ?_
      rintro ⟨-, rfl, hnot⟩
      have hrelative := List.find?_some hfind
      rw [hnot segment (List.mem_of_find?_eq_some hfind)] at hrelative
      cases hrelative
    next hfind =>
      constructor
      · intro h
        obtain rfl := Except.ok.inj h
        exact ⟨haddress, rfl, fun name hname =>
          Bool.eq_false_iff.2 (List.find?_eq_none.1 hfind name hname)⟩
      · rintro ⟨-, rfl, -⟩
        rfl

/-- The path that starts with a separator and has single separators between the given names. -/
def canonical (l : List String) : String := "/" ++ Key.separatorText.intercalate l

/-- The canonical path of accepted names is accepted under every root address. -/
theorem segmentsOf_canonical (h : ∀ name ∈ l, name ≠ "" ∧ Key.separator ∉ name.toList)
    (hrelative : ∀ name ∈ l, isRelative name = false) (root : String) :
    segmentsOf (canonical l) root = .ok (Key.names (withoutRoot (canonical l) root)) := by
  have hnames : Key.names (canonical l) = l := by
    unfold canonical
    rw [Key.names_separator_append, Key.names_intercalate h]
  have haddress : Text.contains (canonical l) "://" = false := Key.not_contains_address h
  refine segmentsOf_eq_ok_iff.2 ⟨?_, rfl, fun name hname => hrelative name ?_⟩
  · refine Bool.eq_false_iff.2 fun hcontains => ?_
    obtain ⟨before, htext⟩ := exists_eq_append_withoutRoot (canonical l) root
    obtain ⟨start, behind, hrest⟩ := Text.contains_iff.1 hcontains
    have hwhole : canonical l = before ++ start ++ "://" ++ behind := by
      rw [htext, hrest]
      simp only [String.append_assoc]
    rw [Text.contains_iff.2 ⟨_, _, hwhole⟩] at haddress
    cases haddress
  · exact hnames ▸ mem_names_of_withoutRoot hname

/-! ## Keys -/

/-- A text without a NUL character is a path. -/
theorem textOf_text (h : '\x00' ∉ raw.toList) : textOf (.text raw) = .ok raw := by
  unfold textOf
  dsimp only
  rw [if_neg fun hnul => h (List.contains_iff_mem.1 hnul)]

theorem segments_text (h : '\x00' ∉ raw.toList) (root : String) :
    segments (.text raw) root = segmentsOf raw root := by
  unfold segments
  rw [textOf_text h]

/-- A path with segments is a text. -/
theorem segments_eq_ok {path : Value} (h : segments path root = .ok l) :
    ∃ raw, path = .text raw ∧ '\x00' ∉ raw.toList ∧ segmentsOf raw root = .ok l := by
  unfold segments at h
  cases hraw : textOf path with
  | error refusal =>
      rw [hraw] at h
      cases h
  | ok raw =>
      rw [hraw] at h
      refine ⟨raw, ?_, Tree.nul_not_mem_of_textOf hraw, h⟩
      unfold textOf at hraw
      split at hraw
      · split at hraw <;> cases hraw
        rfl
      · cases hraw

/-- An accepted path is a text, and its key is the join of its segments. -/
theorem toKey_eq_ok {path : Value} {key : Key} (h : toKey path root = .ok key) :
    ∃ raw l, path = .text raw ∧ '\x00' ∉ raw.toList ∧ segmentsOf raw root = .ok l ∧
      key = Key.separatorText.intercalate l := by
  unfold toKey at h
  cases hl : segments path root with
  | error refusal =>
      rw [hl] at h
      cases h
  | ok l =>
      rw [hl] at h
      obtain ⟨raw, rfl, hnul, hsegments⟩ := segments_eq_ok hl
      exact ⟨raw, l, rfl, hnul, hsegments, (Except.ok.inj h).symm⟩

/-- The segments of an accepted text are non-empty and have no separators. -/
theorem isName_of_segmentsOf (hnul : '\x00' ∉ raw.toList) (h : segmentsOf raw root = .ok l) :
    ∀ name ∈ l, name ≠ "" ∧ Key.separator ∉ name.toList := fun name hname =>
  have hname := mem_segmentsOf h hnul name hname
  ⟨hname.1, hname.2.2.2⟩

/-- An empty root address strips nothing. -/
theorem withoutRoot_empty (raw : String) : withoutRoot raw "" = raw :=
  withoutRoot_of_not_isUnder fun hunder => hunder.1 rfl

/-- An accepted text names the same key without a root address exactly when it is not under the root
address. -/
theorem toKey_whole_iff (hnul : '\x00' ∉ raw.toList) (h : segmentsOf raw root = .ok l) :
    toKey (.text raw) "" = .ok (Key.separatorText.intercalate l) ↔
      ¬ IsUnder (Text.trimEnd Key.separator root) raw := by
  -- the names below the address are compared with those of the whole path
  rw [← withoutRoot_eq_self_iff, ← names_withoutRoot_eq_iff]
  obtain ⟨haddress, hnames, hrelative⟩ := segmentsOf_eq_ok_iff.1 h
  rw [hnames]
  constructor
  · intro hkey
    obtain ⟨_, whole, hraw, -, hwhole, hsame⟩ := toKey_eq_ok hkey
    cases hraw
    obtain rfl := (Key.intercalate_inj (isName_of_segmentsOf hnul h)
      (isName_of_segmentsOf hnul hwhole)).1 hsame
    obtain ⟨-, hown, -⟩ := segmentsOf_eq_ok_iff.1 hwhole
    rw [withoutRoot_empty] at hown
    exact hown.symm
  · intro hown
    have hkept : withoutRoot raw root = raw := names_withoutRoot_eq_iff.1 (hnames.trans hown)
    rw [hkept] at haddress
    have hwhole : segmentsOf raw "" = .ok l := by
      rw [segmentsOf_eq_ok_iff, withoutRoot_empty]
      exact ⟨haddress, hown.symm, hrelative⟩
    unfold toKey
    rw [segments_text hnul, hwhole]
    rfl

/-- The root address, read as an absolute path, is that of the key or of an ancestor of the key. -/
def RepeatsRoot (root : String) (key : Key) : Prop :=
  ∃ above, Text.trimEnd Key.separator root = "/" ++ above ∧
    (key = above ∨ Key.isAncestor above key = true)

theorem isUnder_iff_repeatsRoot {key : Key} :
    IsUnder (Text.trimEnd Key.separator root) ("/" ++ key) ↔ RepeatsRoot root key := by
  have htrimmed := Text.getLast?_trimEnd Key.separator root
  unfold RepeatsRoot
  generalize Text.trimEnd Key.separator root = base at htrimmed
  have habove : ∀ {above : Key}, base = "/" ++ above → above ≠ Key.root := by
    rintro above rfl rfl
    exact htrimmed rfl
  constructor
  · rintro ⟨hbase, heq | ⟨rest, heq⟩⟩
    · exact ⟨key, heq.symm, Or.inl rfl⟩
    · rw [String.append_assoc] at heq
      obtain rfl | ⟨above, rfl⟩ := Key.separator_append_eq heq
      · exact absurd rfl hbase
      · rw [String.append_assoc, String.append_right_inj, ← String.append_assoc] at heq
        refine ⟨above, rfl, Or.inr ?_⟩
        rw [heq]
        exact Key.isAncestor_below (habove rfl) rest
  · rintro ⟨above, rfl, hkey⟩
    refine ⟨fun hempty => ?_, ?_⟩
    · exact absurd (String.append_eq_empty_iff.1 hempty).1 (by decide)
    · obtain rfl | hancestor := hkey
      · exact Or.inl rfl
      · unfold Key.isAncestor at hancestor
        rw [Key.directoryPrefix_eq (habove rfl), Bool.and_eq_true] at hancestor
        obtain ⟨rest, rfl⟩ := Text.beginsWith_iff.1 hancestor.1
        exact Or.inr ⟨rest, by simp only [String.append_assoc]⟩

/-- A path that starts with a separator lies under no root address that starts otherwise. -/
theorem not_isUnder_of_not_beginsWith (hoff : Text.beginsWith root Key.separatorText = false)
    (key : Key) : ¬ IsUnder (Text.trimEnd Key.separator root) ("/" ++ key) := by
  rw [isUnder_iff_repeatsRoot]
  rintro ⟨above, habove, -⟩
  obtain ⟨ending, hroot⟩ := Text.exists_eq_trimEnd_append Key.separator root
  rw [habove] at hroot
  have hbegins : Text.beginsWith root Key.separatorText = true :=
    Text.beginsWith_iff.2 ⟨above ++ ending, hroot.trans String.append_assoc⟩
  rw [hoff] at hbegins
  cases hbegins

/-- The canonical path of an accepted text is accepted, and its segments are the names that are left
when the root address is stripped once more. -/
theorem canonical_again (hnul : '\x00' ∉ raw.toList) (h : segmentsOf raw root = .ok l) :
    ∃ again, again = Key.names (withoutRoot (canonical l) root) ∧
      (∀ name ∈ again, name ≠ "" ∧ Key.separator ∉ name.toList) ∧
      toKey (.text (canonical l)) root = .ok (Key.separatorText.intercalate again) ∧
      normalize (.text (canonical l)) root = .ok (canonical again) := by
  have hl := mem_segmentsOf h hnul
  have hsegments := segmentsOf_canonical (isName_of_segmentsOf hnul h)
    (fun name hname => (hl name hname).2.2.1) root
  have hkey : '\x00' ∉ (canonical l).toList := by
    unfold canonical
    rw [String.toList_append, List.mem_append, not_or]
    exact ⟨by decide, Key.not_mem_intercalate (by decide) fun name hname => (hl name hname).2.1⟩
  refine ⟨_, rfl, isName_of_segmentsOf hkey hsegments, ?_, ?_⟩
  · unfold toKey
    rw [segments_text hkey, hsegments]
    rfl
  · unfold normalize
    rw [segments_text hkey, hsegments]
    rfl

/-- The function `withoutRoot` strips a root address from a canonical path that starts with it. -/
theorem withoutRoot_canonical {above rest : String}
    (habove : Text.trimEnd Key.separator root = "/" ++ above)
    (hrest : rest = "" ∨ ∃ tail, rest = "/" ++ tail)
    (hl : Key.separatorText.intercalate l = above ++ rest) :
    withoutRoot (canonical l) root = rest := by
  have hroot : Text.trimEnd Key.separator root ≠ "" := by
    rw [habove]
    exact fun hempty => absurd (String.append_eq_empty_iff.1 hempty).1 (by decide)
  have htext : canonical l = Text.trimEnd Key.separator root ++ rest := by
    unfold canonical
    rw [hl, habove, String.append_assoc]
  rw [htext, withoutRoot_of_append hroot hrest]

/-- The canonical path of an accepted path is accepted again. It names the same key, and is its own
canonical path, exactly when the key does not repeat the root address. -/
theorem normalize_again_iff {path : Value} {key : Key} (h : toKey path root = .ok key) :
    ∃ text, normalize path root = .ok text ∧
      (toKey (.text text) root = .ok key ↔ ¬ RepeatsRoot root key) ∧
      (normalize (.text text) root = .ok text ↔ ¬ RepeatsRoot root key) ∧
      ∀ above, Text.trimEnd Key.separator root = "/" ++ above →
        (key = above → toKey (.text text) root = .ok Key.root) ∧
        ∀ rest, key = above ++ "/" ++ rest → toKey (.text text) root = .ok rest := by
  obtain ⟨raw, l, rfl, hnul, hsegments, rfl⟩ := toKey_eq_ok h
  have hl := isName_of_segmentsOf hnul hsegments
  obtain ⟨again, hagain, hnames, hkey, hnormalize⟩ := canonical_again hnul hsegments
  -- keys and canonical paths are told by their names, so the question is whether these are kept
  have hsame : again = l ↔ ¬ RepeatsRoot root (Key.separatorText.intercalate l) := by
    have hown : Key.names (canonical l) = l := by
      unfold canonical
      rw [Key.names_separator_append, Key.names_intercalate hl]
    rw [← isUnder_iff_repeatsRoot]
    show again = l ↔ ¬ IsUnder _ (canonical l)
    rw [← withoutRoot_eq_self_iff, ← names_withoutRoot_eq_iff, ← hagain, hown]
  refine ⟨canonical l, ?_, ?_, ?_, fun above habove => ⟨fun heq => ?_, fun rest heq => ?_⟩⟩
  · unfold normalize
    rw [segments_text hnul, hsegments]
    rfl
  · rw [hkey, ← hsame, ← Key.intercalate_inj hnames hl]
    exact ⟨Except.ok.inj, congrArg _⟩
  · rw [hnormalize, ← hsame, ← Key.intercalate_inj hnames hl]
    exact ⟨fun heq => (String.append_right_inj _).1 (Except.ok.inj heq),
      fun heq => congrArg (fun key => Except.ok ("/" ++ key)) heq⟩
  · have hnothing : withoutRoot (canonical l) root = "" :=
      withoutRoot_canonical habove (Or.inl rfl) (heq.trans String.append_empty.symm)
    rw [hkey, hagain, hnothing]
    rfl
  · have hrest : withoutRoot (canonical l) root = "/" ++ rest :=
      withoutRoot_canonical habove (Or.inr ⟨rest, rfl⟩) (heq.trans String.append_assoc)
    rw [hkey, hagain, hrest, Key.names_separator_append, Key.intercalate_names_below hl heq]

theorem normalize_again_iff_repeated :
    toKey "/a/a//b" "/a/" = .ok "a/b" ∧
    ∃ text, normalize "/a/a//b" "/a/" = .ok text ∧ toKey (.text text) "/a/" = .ok "b" ∧
      ¬ toKey (.text text) "/a/" = .ok "a/b" ∧ ¬ normalize (.text text) "/a/" = .ok text := by
  have hkey : toKey "/a/a//b" "/a/" = .ok "a/b" := rfl
  have hroot : Text.trimEnd Key.separator "/a/" = "/" ++ "a" := by decide
  have hrepeats : RepeatsRoot "/a/" "a/b" := ⟨"a", hroot, Or.inr (by decide)⟩
  obtain ⟨text, htext, hsame, hstable, hbelow⟩ := normalize_again_iff hkey
  exact ⟨hkey, text, htext, (hbelow "a" hroot).2 "b" rfl, fun heq => hsame.1 heq hrepeats,
    fun heq => hstable.1 heq hrepeats⟩

end Path

namespace Tree

/-- A path resolves only when it and the root address are texts. -/
theorem resolve_eq_ok {t : Tree} {path : Value} {key : Key} (h : t.resolve path = .ok key) :
    ∃ raw root l, path = .text raw ∧ t.settings.rootUri = .text root ∧ '\x00' ∉ raw.toList ∧
      Path.segmentsOf raw root = .ok l ∧ key = Key.separatorText.intercalate l := by
  unfold resolve at h
  split at h
  · cases h
  · split at h
    · cases h
    next l hsegments =>
      split at h <;> cases h
      cases hroot : t.settings.rootUri with
      | text root =>
          rw [hroot, Address.segments_text] at hsegments
          cases hl : Path.segments path root with
          | error refusal =>
              rw [hl] at hsegments
              cases hsegments
          | ok names =>
              rw [hl] at hsegments
              cases hsegments
              obtain ⟨raw, rfl, hnul, hraw⟩ := Path.segments_eq_ok hl
              exact ⟨raw, root, l, rfl, rfl, hnul, hraw, rfl⟩
      | _ =>
          -- nothing can be taken off the end of such an address
          rw [hroot] at hsegments
          unfold Address.segments at hsegments
          cases hraw : Path.textOf path <;> rw [hraw] at hsegments <;> cases hsegments

/-- A tree with the root address `/a`. -/
def rooted : Tree where
  bucket := "b"
  settings := { Settings.default with rootUri := "/a" }
  isOpen := true
  pageLimit := 8
  nestingLimit := 8

/-- Under the root address `/a`, the canonical path of a key below `a` names another key. So
`mkdirs` with missing parents makes them at other keys than those above its directory. -/
theorem parents_elsewhere :
    Path.toKey "/a/a/b" "/a" = .ok "a/b" ∧ Path.normalize "/a/a/b" "/a" = .ok "/a/b" ∧
    Path.toKey "/a/b" "/a" = .ok "b" ∧ Path.normalize "/a/b" "/a" = .ok "/b" ∧
    ∃ memory, (rooted.mkdirs "/a/a/x/y" true).perform (Memory.backend "b") (.ofObjects "b" []) =
        (some (.ok true), memory) ∧
      (memory.bucket "b").keys = ["a/x/y_$folder$", "x_$folder$"] :=
  ⟨rfl, rfl, rfl, rfl, _, rfl, rfl⟩

end Tree

end BucketTree
