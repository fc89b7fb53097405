import BucketTree.Proofs.Key.WellFormed
import BucketTree.Tree.Basic

/-!
# The keys of paths

A path that a tree resolves names the root or a plain key (`isPath_of_resolve`). A path that it
refuses ends the operation before any request (`refusal_of_resolve`).
-/

set_option autoImplicit false

namespace BucketTree

namespace Key

/-- The keys that a path may name: the root and the plain keys. -/
def IsPath (suffix : String) (key : Key) : Prop := key = root ∨ IsPlain suffix key

theorem IsPath.isPlain {suffix : String} {key : Key} (h : IsPath suffix key) (hroot : key ≠ root) :
    IsPlain suffix key :=
  h.resolve_left hroot

/-- The key of a path is no marker. -/
theorem IsPath.isMarker_eq_false {suffix : String} {key : Key} (h : IsPath suffix key)
    (hne : suffix ≠ "") (hsuffix : separator ∉ suffix.toList) : isMarker suffix key = false := by
  rcases h with rfl | hplain
  · refine Bool.eq_false_iff.2 fun hmarker => ?_
    obtain ⟨dir, hdir⟩ := isMarker_iff.1 hmarker
    exact hne (String.append_eq_empty_iff.1 hdir.symm).2
  · exact hplain.isMarker_eq_false hsuffix

/-- After the prefix of a directory that a path names, the rest of a well-formed key is well
formed. -/
theorem IsWellFormed.of_directoryPrefix {suffix : String} {dir : Key} {rest : String}
    (h : IsWellFormed suffix (directoryPrefix dir ++ rest))
    (hsuffix : separator ∉ suffix.toList) : IsWellFormed suffix rest := by
  by_cases hroot : dir = root
  · have hprefix : directoryPrefix root = "" := rfl
    rwa [hroot, hprefix, String.empty_append] at h
  · rw [directoryPrefix_eq hroot] at h
    exact (h.of_below hsuffix).2

/-- The parts of a text have no separators and consist of characters of the text. -/
theorem mem_splitOn {c : Char} {text part : List Char} (h : part ∈ text.splitOn c) :
    c ∉ part ∧ part ⊆ text := by
  -- a separator opens a part, and any other character goes in front of the first one
  induction text generalizing part with
  | nil =>
      rw [List.splitOn_nil, List.mem_singleton] at h
      subst h
      exact ⟨List.not_mem_nil, List.nil_subset _⟩
  | cons x rest ih =>
      rw [List.splitOn_cons_eq_if_modifyHead] at h
      split at h
      next =>
        rcases List.mem_cons.1 h with rfl | h
        · exact ⟨List.not_mem_nil, List.nil_subset _⟩
        · exact ⟨(ih h).1, List.Subset.trans (ih h).2 (List.subset_cons_self x rest)⟩
      next hx =>
        cases hparts : rest.splitOn c with
        | nil => exact absurd hparts (List.splitOn_ne_nil c rest)
        | cons first others =>
            rw [hparts] at h ih
            rcases List.mem_cons.1 h with rfl | h
            · obtain ⟨hnot, hsubset⟩ := ih List.mem_cons_self
              refine ⟨?_, List.cons_subset_cons x hsubset⟩
              rw [List.mem_cons, not_or]
              exact ⟨fun heq => hx (beq_iff_eq.2 heq.symm), hnot⟩
            · obtain ⟨hnot, hsubset⟩ := ih (List.mem_cons_of_mem _ h)
              exact ⟨hnot, List.Subset.trans hsubset (List.subset_cons_self x rest)⟩

end Key

/-- The function `withoutRoot` returns characters of the path only. -/
theorem Path.withoutRoot_subset (path root : String) :
    (Path.withoutRoot path root).toList ⊆ path.toList := by
  unfold Path.withoutRoot Text.dropFirst
  dsimp only
  split
  · rw [String.toList_ofList]
    exact List.drop_subset _ _
  · exact List.Subset.refl _

/-- The segments of a text are non-empty, not relative, and have no separator and no NUL
character. -/
theorem Path.mem_segmentsOf {raw root : String} {names : List String}
    (h : Path.segmentsOf raw root = .ok names) (hraw : '\x00' ∉ raw.toList) :
    ∀ name ∈ names, name ≠ "" ∧ '\x00' ∉ name.toList ∧ Path.isRelative name = false ∧
      Key.separator ∉ name.toList := by
  unfold Path.segmentsOf at h
  dsimp only at h
  have hinner := Path.withoutRoot_subset raw root
  generalize Path.withoutRoot raw root = inner at h hinner
  split at h
  · cases h
  · split at h
    · cases h
    next hrelative =>
      obtain rfl := Except.ok.inj h
      intro name hname
      have hnot := List.find?_eq_none.1 hrelative name hname
      obtain ⟨part, hpart, rfl⟩ := List.mem_map.1 hname
      obtain ⟨hsplit, hne⟩ := List.mem_filter.1 hpart
      obtain ⟨hseparator, hsubset⟩ := Key.mem_splitOn hsplit
      rw [String.toList_ofList]
      refine ⟨?_, ?_, Bool.eq_false_iff.2 hnot, hseparator⟩
      · rintro hempty
        rw [← String.toList_eq_nil_iff, String.toList_ofList] at hempty
        rw [hempty] at hne
        cases hne
      · exact fun hnul => hraw (hinner (hsubset hnul))

namespace Tree

/-- The three outcomes of splitting a path into segments: a misuse, a refusal, and the segments of a
text. -/
theorem segments_cases (path root : Value) :
    (∃ misuse, Address.segments path root = .error (.misuse misuse)) ∨
    (∃ refusal, Address.segments path root = .error (.known (.ofRefusal refusal))) ∨
    ∃ raw text names, Path.textOf path = .ok raw ∧ Path.segmentsOf raw text = .ok names ∧
      Address.segments path root = .ok names := by
  cases hraw : Path.textOf path with
  | error refusal =>
      refine Or.inr (Or.inl ⟨refusal, ?_⟩)
      unfold Address.segments
      rw [hraw]
      rfl
  | ok raw =>
      cases hroot : root.textFor "rstrip" with
      | error misuse =>
          refine Or.inl ⟨misuse, ?_⟩
          unfold Address.segments
          rw [hraw, hroot]
          rfl
      | ok text =>
          have hsegments : Address.segments path root =
              (Path.segmentsOf raw text).mapError fun refusal => .known (.ofRefusal refusal) := by
            unfold Address.segments
            rw [hraw, hroot]
            -- both sides only pass the segments on, whatever they are
            generalize Path.segmentsOf = segmentsOf
            rfl
          cases hnames : Path.segmentsOf raw text with
          | error refusal => exact Or.inr (Or.inl ⟨refusal, by rw [hsegments, hnames]; rfl⟩)
          | ok names =>
              exact Or.inr (Or.inr ⟨raw, text, names, rfl, hnames, by rw [hsegments, hnames]; rfl⟩)

/-- A path of text has no NUL character. -/
theorem nul_not_mem_of_textOf {path : Value} {raw : String} (h : Path.textOf path = .ok raw) :
    '\x00' ∉ raw.toList := by
  unfold Path.textOf at h
  split at h
  · split at h
    · cases h
    next hnul =>
      cases h
      exact fun hmem => hnul (List.contains_iff_mem.2 hmem)
  · cases h

/-- The segments of a path are non-empty, not relative, and have no separator and no NUL
character. -/
theorem mem_segments {path root : Value} {names : List String}
    (h : Address.segments path root = .ok names) :
    ∀ name ∈ names, name ≠ "" ∧ '\x00' ∉ name.toList ∧ Path.isRelative name = false ∧
      Key.separator ∉ name.toList := by
  rcases segments_cases path root with
    ⟨misuse, hsegments⟩ | ⟨refusal, hsegments⟩ | ⟨raw, text, names', hraw, hnames, hsegments⟩
  · rw [hsegments] at h
    cases h
  · rw [hsegments] at h
    cases h
  · rw [hsegments] at h
    cases h
    exact Path.mem_segmentsOf hnames (nul_not_mem_of_textOf hraw)

/-- The fault of resolving a path is a misuse of the root address, or a known failure: an invalid
path or a closed tree. -/
theorem refusal_of_resolve {t : Tree} {path : Value} {fault : Fault}
    (h : t.resolve path = .error fault) :
    (∃ misuse, fault = .misuse misuse) ∨
      ∃ failure, fault = .known failure ∧ ((∃ code, failure.kind = .general code) ∨
        ∃ refused, failure.kind = .invalidPath refused) := by
  unfold resolve at h
  split at h
  · cases h
    exact Or.inr ⟨_, rfl, Or.inl ⟨_, rfl⟩⟩
  · split at h
    next hsegments =>
      cases h
      rcases segments_cases path t.settings.rootUri with
        ⟨misuse, hrefused⟩ | ⟨refusal, hrefused⟩ | ⟨raw, text, names, -, -, hnames⟩
      · rw [hrefused] at hsegments
        cases hsegments
        exact Or.inl ⟨misuse, rfl⟩
      · rw [hrefused] at hsegments
        cases hsegments
        exact Or.inr ⟨_, rfl, Or.inr ⟨_, rfl⟩⟩
      · rw [hnames] at hsegments
        cases hsegments
    next =>
      split at h <;> cases h
      exact Or.inr ⟨_, rfl, Or.inr ⟨_, rfl⟩⟩

/-- A path names the root or a plain key. -/
theorem isPath_of_resolve {t : Tree} {path : Value} {key : Key} (h : t.resolve path = .ok key) :
    Key.IsPath t.suffix key := by
  unfold resolve at h
  split at h
  · cases h
  · split at h
    · cases h
    next names hsegments =>
      split at h
      · cases h
      next hmarker =>
        obtain rfl := Except.ok.inj h
        by_cases hnil : names = []
        · exact Or.inl (congrArg _ hnil)
        · have hnames := mem_segments hsegments
          have hparts := Key.parts_intercalate hnil fun name hname => (hnames name hname).2.2.2
          apply Or.inr
          unfold Key.IsPlain
          rw [hparts]
          intro name hname
          obtain ⟨hne, hnul, hrelative, -⟩ := hnames name hname
          exact ⟨hne, hnul, hrelative,
            Bool.eq_false_iff.2 (List.find?_eq_none.1 hmarker name hname)⟩

end Tree

end BucketTree
