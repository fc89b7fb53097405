import BucketTree.Text.Affix
import Mathlib.Data.List.DropRight

/-!
# Prefixes, suffixes and trimming

A text starts with another exactly when it is that text followed by a rest, and dropping the prefix
gives the rest. Two texts with a common prefix are ordered as their rests.
-/

set_option autoImplicit false

namespace BucketTree.Text

/-- A text starts with `head` exactly when it is `head` followed by a rest. -/
theorem beginsWith_iff {s head : String} : beginsWith s head = true ↔ ∃ rest, s = head ++ rest := by
  constructor
  · intro h
    obtain ⟨rest, hrest⟩ := List.isPrefixOf_iff_prefix.1 h
    refine ⟨String.ofList rest, ?_⟩
    rw [← String.toList_inj, String.toList_append, String.toList_ofList, hrest]
  · rintro ⟨rest, rfl⟩
    refine List.isPrefixOf_iff_prefix.2 ⟨rest.toList, ?_⟩
    rw [String.toList_append]

@[simp]
theorem beginsWith_append (head rest : String) : beginsWith (head ++ rest) head = true :=
  beginsWith_iff.2 ⟨rest, rfl⟩

/-- A text ends with `tail` exactly when it is a text followed by `tail`. -/
theorem endsWith_iff {s tail : String} : endsWith s tail = true ↔ ∃ head, s = head ++ tail := by
  constructor
  · intro h
    obtain ⟨head, hhead⟩ := List.isSuffixOf_iff_suffix.1 h
    refine ⟨String.ofList head, ?_⟩
    rw [← String.toList_inj, String.toList_append, String.toList_ofList, hhead]
  · rintro ⟨head, rfl⟩
    refine List.isSuffixOf_iff_suffix.2 ⟨head.toList, ?_⟩
    rw [String.toList_append]

/-- A text ends with a character when that is its last one. -/
theorem endsWith_singleton {c : Char} {s : String} :
    endsWith s (String.singleton c) = true ↔ s.toList.getLast? = some c := by
  rw [endsWith_iff, List.getLast?_eq_some_iff]
  constructor
  · rintro ⟨head, rfl⟩
    exact ⟨head.toList, by simp⟩
  · rintro ⟨init, hinit⟩
    refine ⟨String.ofList init, ?_⟩
    rw [← String.toList_inj, hinit]
    simp

/-- Dropping a prefix gives the rest. -/
@[simp]
theorem dropFirst_append (head rest : String) :
    dropFirst head.toList.length (head ++ rest) = rest := by
  unfold dropFirst
  rw [String.toList_append, List.drop_left, String.ofList_toList]

/-- When two concatenations are equal, one of the first texts is a prefix of the other. -/
theorem append_eq_append {a b c d : String} (h : a ++ c = b ++ d) :
    (∃ middle, b = a ++ middle ∧ c = middle ++ d) ∨
      ∃ middle, a = b ++ middle ∧ d = middle ++ c := by
  have hlists : a.toList ++ c.toList = b.toList ++ d.toList := by
    rw [← String.toList_append, ← String.toList_append, h]
  rcases List.append_eq_append_iff.1 hlists with ⟨middle, hb, hc⟩ | ⟨middle, ha, hd⟩
  · refine Or.inl ⟨String.ofList middle, ?_, ?_⟩
    · rw [← String.toList_inj, String.toList_append, String.toList_ofList, hb]
    · rw [← String.toList_inj, String.toList_append, String.toList_ofList, hc]
  · refine Or.inr ⟨String.ofList middle, ?_, ?_⟩
    · rw [← String.toList_inj, String.toList_append, String.toList_ofList, ha]
    · rw [← String.toList_inj, String.toList_append, String.toList_ofList, hd]

/-- When the concatenation of two texts starts with a character, the first text does, unless it is
empty. -/
theorem singleton_append_eq {c : Char} {rest first second : String}
    (h : String.singleton c ++ rest = first ++ second) :
    first = "" ∨ ∃ tail, first = String.singleton c ++ tail := by
  rcases append_eq_append h with ⟨tail, hfirst, -⟩ | ⟨tail, hc, -⟩
  · exact Or.inr ⟨tail, hfirst⟩
  · have hlists : [c] = first.toList ++ tail.toList := by
      rw [← String.toList_append, ← hc, String.toList_singleton]
    rcases List.append_eq_singleton_iff.1 hlists.symm with ⟨hfirst, -⟩ | ⟨hfirst, -⟩
    · exact Or.inl (String.toList_eq_nil_iff.1 hfirst)
    · refine Or.inr ⟨"", ?_⟩
      rw [← String.toList_inj, String.toList_append, String.toList_singleton, hfirst]
      rfl

/-! ## Occurrences -/

theorem occursIn_iff {part text : List Char} : occursIn part text = true ↔ part <:+: text := by
  induction text with
  | nil =>
      unfold occursIn
      rw [List.isEmpty_iff, List.infix_nil]
  | cons c rest ih =>
      unfold occursIn
      rw [Bool.or_eq_true, List.isPrefixOf_iff_prefix, ih, List.infix_cons_iff]

/-- A text contains `part` exactly when it is `part` with texts before and after it. -/
theorem contains_iff {s part : String} :
    contains s part = true ↔ ∃ before behind, s = before ++ part ++ behind := by
  unfold contains
  rw [occursIn_iff]
  constructor
  · rintro ⟨before, behind, h⟩
    refine ⟨String.ofList before, String.ofList behind, ?_⟩
    rw [← String.toList_inj, ← h]
    simp only [String.toList_append, String.toList_ofList]
  · rintro ⟨before, behind, rfl⟩
    exact ⟨before.toList, behind.toList, by simp only [String.toList_append]⟩

/-! ## Trimming -/

theorem dropWhile_eq_self {c : Char} {text : List Char} (h : text.head? ≠ some c) :
    text.dropWhile (· == c) = text := by
  cases text with
  | nil => rfl
  | cons first rest =>
      apply List.dropWhile_cons_of_neg
      intro heq
      obtain rfl := eq_of_beq heq
      exact h rfl

/-- A text that does not end with the character is not changed by trimming its end. -/
theorem trimEnd_eq_self {c : Char} {s : String} (h : s.toList.getLast? ≠ some c) :
    trimEnd c s = s := by
  unfold trimEnd
  rw [dropWhile_eq_self, List.reverse_reverse, String.ofList_toList]
  rwa [List.head?_reverse]

/-- A text with a trimmed end does not end with the character. -/
theorem getLast?_trimEnd (c : Char) (s : String) : (trimEnd c s).toList.getLast? ≠ some c := by
  unfold trimEnd
  rw [String.toList_ofList, List.getLast?_reverse]
  intro hlast
  have hnot := List.head?_dropWhile_not (· == c) s.toList.reverse
  rw [hlast] at hnot
  simp at hnot

/-- A text is its trimmed part followed by what was trimmed. -/
theorem exists_eq_trimEnd_append (c : Char) (s : String) : ∃ ending, s = trimEnd c s ++ ending := by
  refine ⟨String.ofList (s.toList.reverse.takeWhile (· == c)).reverse, ?_⟩
  unfold trimEnd
  rw [← String.toList_inj, String.toList_append, String.toList_ofList, String.toList_ofList,
    ← List.reverse_append, List.takeWhile_append_dropWhile, List.reverse_reverse]

/-- Trimming the end removes a final character. -/
theorem trimEnd_append_singleton (c : Char) (s : String) :
    trimEnd c (s ++ String.singleton c) = trimEnd c s := by
  unfold trimEnd
  rw [String.toList_append, String.toList_singleton, List.reverse_append]
  have hdrop : (c :: s.toList.reverse).dropWhile (· == c) = s.toList.reverse.dropWhile (· == c) :=
    List.dropWhile_cons_of_pos (beq_self_eq_true c)
  exact congrArg (fun l => String.ofList l.reverse) hdrop

/-- A text that does not start with the character is trimmed at its end only. -/
theorem trim_eq_trimEnd {c : Char} {s : String} (h : s.toList.head? ≠ some c) :
    trim c s = trimEnd c s := by
  unfold trim
  rw [dropWhile_eq_self h, String.ofList_toList]

/-- Trimming leaves nothing exactly when the text consists of the character only. -/
theorem trim_eq_empty {c : Char} {s : String} : trim c s = "" ↔ ∀ x ∈ s.toList, x = c := by
  unfold trim trimEnd
  rw [← String.toList_eq_nil_iff, String.toList_ofList, String.toList_ofList,
    List.reverse_eq_nil_iff, List.dropWhile_eq_nil_iff]
  simp only [List.mem_reverse]
  -- what is left at the start is in the middle or at the end as well
  rw [← List.dropWhile_eq_nil_iff, List.dropWhile_idempotent, List.dropWhile_eq_nil_iff]
  simp only [beq_iff_eq]

/-- Trimming removes the characters around a text that neither starts nor ends with them. -/
theorem trim_append {c : Char} {before inner behind : String} (hbefore : ∀ x ∈ before.toList, x = c)
    (hbehind : ∀ x ∈ behind.toList, x = c) (hne : inner ≠ "")
    (hhead : inner.toList.head? ≠ some c) (hlast : inner.toList.getLast? ≠ some c) :
    trim c (before ++ inner ++ behind) = inner := by
  have hfirst : (inner.toList ++ behind.toList).head? ≠ some c := by
    rwa [List.head?_append_of_ne_nil _ (mt String.toList_eq_nil_iff.1 hne)]
  unfold trim trimEnd
  rw [String.toList_append, String.toList_append, List.append_assoc,
    List.dropWhile_append_of_pos (by simpa using hbefore), dropWhile_eq_self hfirst,
    String.toList_ofList, List.reverse_append,
    List.dropWhile_append_of_pos (by simpa using hbehind), dropWhile_eq_self, List.reverse_reverse,
    String.ofList_toList]
  rwa [List.head?_reverse]

/-- A text is its trimmed part surrounded by the trimmed characters. -/
theorem exists_eq_trim (c : Char) (s : String) : ∃ before behind,
    (∀ x ∈ before.toList, x = c) ∧ (∀ x ∈ behind.toList, x = c) ∧
      s = before ++ trim c s ++ behind := by
  have htake : ∀ l : List Char, ∀ x ∈ l.takeWhile (· == c), x = c := by
    intro l x hx
    simpa using List.all_eq_true.1 List.all_takeWhile x hx
  refine ⟨String.ofList (s.toList.takeWhile (· == c)),
    String.ofList ((s.toList.dropWhile (· == c)).reverse.takeWhile (· == c)).reverse, ?_, ?_, ?_⟩
  · rw [String.toList_ofList]
    exact htake _
  · intro x hx
    rw [String.toList_ofList, List.mem_reverse] at hx
    exact htake _ x hx
  · unfold trim trimEnd
    rw [← String.toList_inj]
    simp only [String.toList_append, String.toList_ofList]
    rw [List.append_assoc, ← List.reverse_append, List.takeWhile_append_dropWhile,
      List.reverse_reverse, List.takeWhile_append_dropWhile]

/-! ## Up to the first occurrence -/

/-- The function `through?` returns a prefix of the text that ends with the mark. -/
theorem through?_spec {mark text first : List Char} (h : through? mark text = some first) :
    first <+: text ∧ mark <:+ first := by
  induction text generalizing first with
  | nil =>
      unfold through? at h
      split at h
      next hmark =>
        cases h
        rw [List.isEmpty_iff.1 hmark]
        exact ⟨List.prefix_rfl, List.suffix_rfl⟩
      next => cases h
  | cons c rest ih =>
      unfold through? at h
      split at h
      next hmark =>
        cases h
        exact ⟨List.isPrefixOf_iff_prefix.1 hmark, List.suffix_rfl⟩
      next =>
        obtain ⟨p, hp, rfl⟩ := Option.map_eq_some_iff.1 h
        obtain ⟨hbegins, hsuffix⟩ := ih hp
        exact ⟨List.cons_prefix_cons.2 ⟨rfl, hbegins⟩, hsuffix.trans (List.suffix_cons c p)⟩

/-- The function `through?` does not depend on the text after the first occurrence of the mark. -/
theorem through?_append {mark text first : List Char} (h : through? mark text = some first)
    (rest : List Char) : through? mark (first ++ rest) = some first := by
  induction text generalizing first with
  | nil =>
      unfold through? at h
      split at h
      next hmark =>
        cases h
        obtain rfl := List.isEmpty_iff.1 hmark
        cases rest <;> rfl
      next => cases h
  | cons c tail ih =>
      unfold through? at h
      split at h
      next =>
        cases h
        cases mark with
        | nil => cases rest <;> rfl
        | cons m mark =>
            have hmark : (m :: mark).isPrefixOf (m :: (mark ++ rest)) = true :=
              List.isPrefixOf_iff_prefix.2 ⟨rest, rfl⟩
            show through? (m :: mark) (m :: (mark ++ rest)) = _
            unfold through?
            rw [if_pos hmark]
      next hmark =>
        obtain ⟨p, hp, rfl⟩ := Option.map_eq_some_iff.1 h
        obtain ⟨hbegins, hsuffix⟩ := through?_spec hp
        show through? mark (c :: (p ++ rest)) = _
        unfold through?
        -- an occurrence at the start would lie within `c :: p`, where the text has none.
        rw [if_neg, ih hp]
        · rfl
        · intro hstart
          apply hmark
          have hlength : mark.length ≤ (c :: p).length :=
            Nat.le_succ_of_le hsuffix.length_le
          have hwithin : mark <+: c :: p :=
            List.prefix_of_prefix_length_le (List.isPrefixOf_iff_prefix.1 hstart)
              (List.prefix_append (c :: p) rest) hlength
          exact List.isPrefixOf_iff_prefix.2
            (hwithin.trans (List.cons_prefix_cons.2 ⟨rfl, hbegins⟩))

/-- The function `through?` returns nothing exactly when the mark does not occur. -/
theorem through?_eq_none {mark text : List Char} :
    through? mark text = none ↔ ¬ mark <:+: text := by
  induction text with
  | nil =>
      unfold through?
      cases mark with
      | nil => simp
      | cons m mark => simp
  | cons c rest ih =>
      unfold through?
      rw [List.infix_cons_iff, ← List.isPrefixOf_iff_prefix, not_or]
      split
      next hmark => simp [hmark]
      next hmark => rw [Option.map_eq_none_iff, ih]; simp [hmark]

/-- No shorter prefix of the text than that of `through?` ends with the mark. -/
theorem eq_of_through? {mark text first p : List Char} (h : through? mark text = some first)
    (hp : p <+: first) (hmark : mark <:+ p) : p = first := by
  cases hthrough : through? mark p with
  | none => exact absurd hmark.isInfix (through?_eq_none.1 hthrough)
  | some q =>
      obtain ⟨hq, -⟩ := through?_spec hthrough
      obtain ⟨rest, hrest⟩ := hq.trans hp
      have hself := through?_append h []
      rw [List.append_nil] at hself
      have hfirst : q = first := by
        rw [← hrest, through?_append hthrough] at hself
        rw [← hrest]
        exact Option.some.inj hself
      exact hp.eq_of_length_le (hfirst ▸ hq.length_le)

/-- The function `through?` returns the shortest prefix of the text that ends with the mark. -/
theorem through?_eq_some {mark text first : List Char} :
    through? mark text = some first ↔
      first <+: text ∧ mark <:+ first ∧ ∀ p, p <+: first → mark <:+ p → p = first := by
  constructor
  · intro h
    exact ⟨(through?_spec h).1, (through?_spec h).2, fun p hp hmark => eq_of_through? h hp hmark⟩
  · rintro ⟨hbegins, hsuffix, hleast⟩
    cases hthrough : through? mark text with
    | none =>
        exact absurd (hsuffix.isInfix.trans hbegins.isInfix) (through?_eq_none.1 hthrough)
    | some q =>
        obtain ⟨hq, hmark⟩ := through?_spec hthrough
        rcases List.prefix_or_prefix_of_prefix hq hbegins with hle | hle
        · -- one of the two beginnings begins the other
          rw [hleast q hle hmark]
        · rw [eq_of_through? hthrough hle hsuffix]

end BucketTree.Text
