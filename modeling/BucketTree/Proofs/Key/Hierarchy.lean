import BucketTree.Proofs.Key.Ancestors
import BucketTree.Proofs.Tree.Grammar
import Mathlib.Logic.Relation
import Mathlib.Order.Defs.Unbundled

/-!
# The hierarchy of canonical keys

A canonical key is the root, or a name joined to a canonical key (`IsCanonical.eq_root_or_join`).
Joining appends the name to the names of the key (`names_join`); `parent?` and `basename` undo it
(`parent?_join`, `basename_join`), and the ancestors of the new key are the key and its ancestors
(`isAncestor_join_iff`). By induction on the names, a key is an ancestor of another exactly when its
names are a strict prefix of the names of the other, and exactly when a chain of parents leads to it
(`hierarchy_canonical`).
-/

set_option autoImplicit false

namespace BucketTree.Key

variable {above key parent : Key} {name rest : String}

/-! ## The order of keys -/

/-- The second key is the parent of the first. -/
def IsParent (child parent : Key) : Prop := parent? child = some parent

theorem isAncestor_self (key : Key) : isAncestor key key = false := by
  simp [isAncestor]

/-- An ancestor is shorter than the key. -/
theorem length_lt_of_isAncestor (h : isAncestor above key = true) :
    above.length < key.length := by
  by_cases habove : above = root
  · subst habove
    have hkey := isAncestor_root.1 h
    exact Nat.pos_of_ne_zero fun hzero => hkey (String.length_eq_zero_iff.1 hzero)
  · obtain ⟨rest, rfl⟩ := (isAncestor_iff habove).1 h
    have hseparator : "/".length = 1 := rfl
    simp only [String.length_append]
    omega

theorem isAncestor_trans (h : isAncestor above parent = true)
    (h' : isAncestor parent key = true) : isAncestor above key = true := by
  by_cases habove : above = root
  · subst habove
    apply isAncestor_root.2
    rintro rfl
    exact Nat.not_lt_zero _ (length_lt_of_isAncestor h')
  · obtain ⟨rest, rfl⟩ := (isAncestor_iff habove).1 h
    have hparent : above ++ "/" ++ rest ≠ root := by
      rintro hempty
      have hlt := length_lt_of_isAncestor h
      rw [hempty] at hlt
      exact Nat.not_lt_zero _ hlt
    obtain ⟨tail, rfl⟩ := (isAncestor_iff hparent).1 h'
    exact (isAncestor_iff habove).2 ⟨rest ++ "/" ++ tail, by simp only [String.append_assoc]⟩

/-- The relation `isAncestor` is a strict order. -/
theorem isStrictOrder_isAncestor :
    IsStrictOrder Key fun above key => isAncestor above key = true where
  irrefl key := by simp [isAncestor_self]
  trans _ _ _ := isAncestor_trans

/-- A key is no ancestor of a text that continues it without a separator. -/
theorem isAncestor_append (habove : above ≠ root) (h : rest.toList.head? ≠ some separator) :
    isAncestor above (above ++ rest) = false := by
  refine Bool.eq_false_iff.2 fun hbelow => h ?_
  obtain ⟨tail, htail⟩ := (isAncestor_iff habove).1 hbelow
  rw [String.append_assoc, String.append_right_inj] at htail
  simp [htail, separator]

/-- A directory is no ancestor of its marker. -/
theorem isAncestor_marker {suffix : String} {marked : Key} (hsuffix : separator ∉ suffix.toList)
    (h : marker suffix above = .ok marked) : isAncestor above marked = false := by
  have habove : above ≠ root := by
    rintro rfl
    cases h
  rw [marker_eq habove] at h
  cases h
  apply isAncestor_append habove
  exact fun hhead => hsuffix (List.mem_of_mem_head? hhead)

/-! ## Names joined to a key -/

/-- A name that can be joined to a key: valid, and without separators. -/
def IsJoinable (name : String) : Prop := Path.IsName name ∧ separator ∉ name.toList

instance (name : String) : Decidable (IsJoinable name) := inferInstanceAs (Decidable (_ ∧ _))

/-- Joining a name to the root gives the name. -/
theorem IsJoinable.join_root (h : IsJoinable name) : join root name = name := by
  rw [join_eq]
  · rfl
  · rw [parts_of_not_mem h.2]
    simpa using h.1.1

/-- Joining a name to another key puts a separator between them. -/
theorem IsJoinable.join_eq (h : IsJoinable name) (hparent : parent ≠ root) :
    join parent name = parent ++ "/" ++ name := by
  rw [Key.join_eq, directoryPrefix_eq hparent]
  rw [parts_of_not_mem h.2]
  simpa using h.1.1

theorem names_join (h : IsJoinable name) : names (join parent name) = names parent ++ [name] := by
  have hname : names name = [name] := names_of_not_mem h.1.1 h.2
  by_cases hparent : parent = root
  · rw [hparent, h.join_root, hname]
    rfl
  · rw [h.join_eq hparent, names_append, hname]

theorem join_ne_root (h : IsJoinable name) : join parent name ≠ root := by
  intro hroot
  have hnames : names (join parent name) = names parent ++ [name] := names_join h
  rw [hroot] at hnames
  exact List.append_ne_nil_of_right_ne_nil _ (List.cons_ne_nil name []) hnames.symm

theorem parent?_join (h : IsJoinable name) : parent? (join parent name) = some parent := by
  by_cases hparent : parent = root
  · rw [hparent, h.join_root]
    exact parent?_top h.1.1 h.2
  · rw [h.join_eq hparent]
    exact parent?_child h.2

/-- The last segment of a text is the part after its last separator. -/
theorem basename_append (h : IsJoinable name) {start : String}
    (hstart : start = "" ∨ ∃ dir, start = dir ++ "/") : basename (start ++ name) = name := by
  have hlast : (start ++ name).toList.getLast? ≠ some separator := by
    rw [String.toList_append,
      List.getLast?_append_of_ne_nil _ (mt String.toList_eq_nil_iff.1 h.1.1)]
    exact fun hlast => h.2 (List.mem_of_getLast? hlast)
  have hname : ∀ c ∈ name.toList.reverse, (c != separator) = true := by
    intro c hc
    exact bne_iff_ne.2 fun heq => h.2 (heq ▸ List.mem_reverse.1 hc)
  have hbehind : start.toList.reverse.takeWhile (· != separator) = [] := by
    rcases hstart with rfl | ⟨dir, rfl⟩
    · rfl
    · simp [separator]
  unfold basename
  rw [Text.trimEnd_eq_self hlast, String.toList_append, List.reverse_append,
    List.takeWhile_append_of_pos hname, hbehind]
  simp

theorem basename_join (h : IsJoinable name) : basename (join parent name) = name := by
  by_cases hparent : parent = root
  · rw [hparent, h.join_root]
    simpa using basename_append h (Or.inl rfl)
  · rw [h.join_eq hparent]
    exact basename_append h (Or.inr ⟨parent, rfl⟩)

theorem isAncestor_join (h : IsJoinable name) : isAncestor parent (join parent name) = true := by
  by_cases hparent : parent = root
  · rw [hparent]
    exact isAncestor_root.2 (join_ne_root h)
  · rw [h.join_eq hparent]
    exact isAncestor_below hparent name

/-- The ancestors of a joined key are the key it was joined to and its ancestors. -/
theorem isAncestor_join_iff (h : IsJoinable name) :
    isAncestor above (join parent name) = true ↔ IsOnWay above parent := by
  have hway : IsOnWay above (join parent name) ↔
      above = join parent name ∨ IsOnWay above parent := by
    by_cases hparent : parent = root
    · rw [hparent, h.join_root]
      exact isOnWay_top h.1.1 h.2
    · rw [h.join_eq hparent]
      exact isOnWay_child hparent h.2
  constructor
  · intro habove
    refine (hway.1 (Or.inr habove)).resolve_left ?_
    rintro rfl
    rw [isAncestor_self] at habove
    cases habove
  · rintro (rfl | habove)
    · exact isAncestor_join h
    · exact isAncestor_trans habove (isAncestor_join h)

/-! ## Canonical keys -/

theorem isCanonical_join (h : IsCanonical parent) (hname : IsJoinable name) :
    IsCanonical (join parent name) := by
  refine Or.inr ?_
  rcases h with rfl | hparts
  · rw [hname.join_root, parts_of_not_mem hname.2]
    simpa using hname.1
  · by_cases hparent : parent = root
    · rw [hparent, hname.join_root, parts_of_not_mem hname.2]
      simpa using hname.1
    · rw [hname.join_eq hparent, parts_append, parts_of_not_mem hname.2]
      simpa [or_imp, forall_and] using ⟨hparts, hname.1⟩

/-- A canonical key is the root, or a name joined to a canonical key. -/
theorem IsCanonical.eq_root_or_join (h : IsCanonical key) :
    key = root ∨ ∃ parent name, IsCanonical parent ∧ IsJoinable name ∧ key = join parent name := by
  rcases h with rfl | hparts
  · exact Or.inl rfl
  · refine Or.inr ?_
    rcases exists_last key with hname | ⟨parent, name, rfl, hname⟩
    · rw [parts_of_not_mem hname] at hparts
      have hjoinable : IsJoinable key := ⟨hparts key List.mem_cons_self, hname⟩
      exact ⟨root, key, Or.inl rfl, hjoinable, hjoinable.join_root.symm⟩
    · rw [parts_append, parts_of_not_mem hname] at hparts
      have hjoinable : IsJoinable name := ⟨hparts name (by simp), hname⟩
      have hparent : ∀ part ∈ parts parent, Path.IsName part :=
        fun part hpart => hparts part (List.mem_append_left _ hpart)
      have hroot : parent ≠ root := ne_empty_of_parts fun part hpart => (hparent part hpart).1
      exact ⟨parent, name, Or.inr hparent, hjoinable, (hjoinable.join_eq hroot).symm⟩

/-- Induction over canonical keys: the root, and a name joined to a canonical key. -/
@[elab_as_elim]
theorem IsCanonical.induction {motive : (key : Key) → IsCanonical key → Prop}
    (top : motive root (Or.inl rfl))
    (below : ∀ parent name (hparent : IsCanonical parent) (hname : IsJoinable name),
      motive parent hparent → motive (join parent name) (isCanonical_join hparent hname))
    {key : Key} (h : IsCanonical key) : motive key h := by
  -- by induction on the number of names, which is one less for the parent
  induction hcount : (names key).length generalizing key with
  | zero =>
      rcases h.eq_root_or_join with rfl | ⟨parent, name, -, hname, rfl⟩
      · exact top
      · rw [names_join hname, List.length_append] at hcount
        cases hcount
  | succ count ih =>
      rcases h.eq_root_or_join with rfl | ⟨parent, name, hparent, hname, rfl⟩
      · exact top
      · rw [names_join hname, List.length_append] at hcount
        exact below parent name hparent hname (ih hparent (Nat.succ.inj hcount))

/-- Canonical keys are determined by their names. -/
theorem IsCanonical.names_inj {other : Key} (h : IsCanonical key) (h' : IsCanonical other) :
    names key = names other ↔ key = other := by
  refine ⟨fun heq => ?_, congrArg names⟩
  rw [← h.intercalate_names, heq, h'.intercalate_names]

/-- A canonical key is an ancestor of another exactly when its names are a strict prefix of those of
the other. -/
theorem isAncestor_iff_names (habove : IsCanonical above) (hkey : IsCanonical key) :
    isAncestor above key = true ↔ names above <+: names key ∧ names above ≠ names key := by
  have hway : IsOnWay above key ↔ names above <+: names key := by
    induction hkey using IsCanonical.induction with
    | top =>
        rw [isOnWay_root, ← habove.names_inj (Or.inl rfl)]
        exact List.prefix_nil.symm
    | below parent name hparent hname ih =>
        rw [IsOnWay, isAncestor_join_iff hname, ih,
          ← habove.names_inj (isCanonical_join hparent hname), names_join hname,
          List.prefix_concat_iff]
  rw [← hway, Ne, habove.names_inj hkey]
  constructor
  · intro h
    refine ⟨Or.inr h, ?_⟩
    rintro rfl
    rw [isAncestor_self] at h
    cases h
  · rintro ⟨h, hne⟩
    exact h.resolve_left hne

/-- A key is an ancestor of a canonical key exactly when a chain of parents leads to it. -/
theorem isAncestor_iff_transGen (hkey : IsCanonical key) :
    isAncestor above key = true ↔ Relation.TransGen IsParent key above := by
  induction hkey using IsCanonical.induction with
  | top =>
      constructor
      · intro h
        exact absurd (length_lt_of_isAncestor h) (Nat.not_lt_zero _)
      · intro h
        obtain ⟨parent, hparent, -⟩ := Relation.TransGen.head'_iff.1 h
        cases hparent
  | below parent name hparent hname ih =>
      have hstep : ∀ {other}, IsParent (join parent name) other ↔ parent = other := by
        intro other
        rw [IsParent, parent?_join hname, Option.some_inj]
      rw [isAncestor_join_iff hname, IsOnWay, ih]
      constructor
      · rintro (rfl | h)
        · exact .single (hstep.2 rfl)
        · exact .head (hstep.2 rfl) h
      · intro h
        -- the first step goes to the parent, and the others go on from there
        obtain ⟨other, hother, hrest⟩ := Relation.TransGen.head'_iff.1 h
        obtain rfl := hstep.1 hother
        exact Relation.reflTransGen_iff_eq_or_transGen.1 hrest

/-- The prefix of the keys below a canonical key is made of its names, each followed by a
separator. -/
theorem IsCanonical.directoryPrefix_eq_join (h : IsCanonical key) :
    directoryPrefix key = String.join ((names key).map (· ++ "/")) := by
  induction h using IsCanonical.induction with
  | top => rfl
  | below parent name hparent hname ih =>
      have hprefix : join parent name = directoryPrefix parent ++ name := by
        rw [Key.join_eq]
        rw [parts_of_not_mem hname.2]
        simpa using hname.1.1
      rw [directoryPrefix_eq (join_ne_root hname), names_join hname, List.map_append,
        String.join_append, ← ih, hprefix]
      simp [String.join, String.append_assoc]

/-- The hierarchy of canonical keys in terms of names: `isAncestor` is the strict prefix order and
the transitive closure of `parent?`, it is a strict order that excludes siblings and markers, and
joining a basename to a parent gives the key. -/
theorem hierarchy_canonical :
    (∀ above key, IsCanonical above → IsCanonical key →
      (isAncestor above key = true ↔ names above <+: names key ∧ names above ≠ names key) ∧
      (isAncestor above key = true ↔ Relation.TransGen IsParent key above)) ∧
    IsStrictOrder Key (fun above key => isAncestor above key = true) ∧
    (∀ key, IsCanonical key → key ≠ root → isAncestor root key = true) ∧
    (∀ above rest, above ≠ root → rest.toList.head? ≠ some separator →
      isAncestor above (above ++ rest) = false) ∧
    (∀ suffix above marked, separator ∉ suffix.toList → marker suffix above = .ok marked →
      isAncestor above marked = false) ∧
    (∀ key, IsCanonical key → directoryPrefix key = String.join ((names key).map (· ++ "/"))) ∧
    (∀ parent name, IsCanonical parent → IsJoinable name →
      IsCanonical (join parent name) ∧ names (join parent name) = names parent ++ [name]) ∧
    ∀ key, IsCanonical key → key ≠ root → ∃ parent, parent? key = some parent ∧
      IsCanonical parent ∧ names key = names parent ++ [basename key] ∧
      join parent (basename key) = key := by
  refine ⟨fun above key habove hkey => ⟨?_, ?_⟩, isStrictOrder_isAncestor, fun key _ => ?_,
    fun above rest => isAncestor_append, fun suffix above marked => isAncestor_marker,
    fun key hkey => hkey.directoryPrefix_eq_join,
    fun parent name hparent hname => ⟨isCanonical_join hparent hname, names_join hname⟩,
    fun key hkey hroot => ?_⟩
  · exact isAncestor_iff_names habove hkey
  · exact isAncestor_iff_transGen hkey
  · exact isAncestor_root.2
  · obtain ⟨parent, name, hparent, hname, rfl⟩ := hkey.eq_root_or_join.resolve_left hroot
    refine ⟨parent, parent?_join hname, hparent, ?_, ?_⟩
    · rw [names_join hname, basename_join hname]
    · rw [basename_join hname]

/-- A key two levels below a directory, a sibling of the directory, and its marker. -/
theorem hierarchy_canonical_shelf :
    IsCanonical "a" ∧ IsCanonical "a/b/c" ∧ isAncestor "a" "a/b/c" = true ∧
    Relation.TransGen IsParent "a/b/c" "a" ∧
    isAncestor "a" "ab" = false ∧ isAncestor "a" "a_$folder$" = false ∧
    ∃ parent, parent? "a/b/c" = some parent ∧ join parent (basename "a/b/c") = "a/b/c" := by
  obtain ⟨habove, -, -, hsibling, hmarker, -, -, hparent⟩ := hierarchy_canonical
  have ha : IsCanonical "a" := by decide
  have hc : IsCanonical "a/b/c" := by decide
  have hbelow : isAncestor "a" "a/b/c" = true := (habove "a" "a/b/c" ha hc).1.2 (by decide)
  obtain ⟨parent, hpar, -, -, hjoin⟩ := hparent "a/b/c" hc (by decide)
  exact ⟨ha, hc, hbelow, (habove "a" "a/b/c" ha hc).2.1 hbelow,
    hsibling "a" "b" (by decide) (by decide),
    hmarker "_$folder$" "a" "a_$folder$" (by decide) rfl, parent, hpar, hjoin⟩

end BucketTree.Key
