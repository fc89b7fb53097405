import BucketTree.Proofs.Key.WellFormed

/-!
# Directories on the way to a key

The parent of a key is the part before its last separator, or the root. The directories on the way
to a key are the key itself and those on the way to its parent (`IsPlain.exists_parent`), so a
recursion over the parents meets all of them.
-/

set_option autoImplicit false

namespace BucketTree.Key

variable {suffix : String} {above dir key parent : Key} {name : String}

theorem isAncestor_iff (habove : above ≠ root) :
    isAncestor above key = true ↔ ∃ rest, key = above ++ "/" ++ rest := by
  constructor
  · intro h
    unfold isAncestor at h
    rw [directoryPrefix_eq habove, Bool.and_eq_true] at h
    exact Text.beginsWith_iff.1 h.1
  · rintro ⟨rest, rfl⟩
    exact isAncestor_below habove rest

/-- A key has more parts than an ancestor other than the root. -/
theorem length_parts_lt (habove : above ≠ root) (h : isAncestor above key = true) :
    (parts above).length < (parts key).length := by
  obtain ⟨rest, rfl⟩ := (isAncestor_iff habove).1 h
  have hrest := List.length_pos_of_ne_nil (parts_ne_nil rest)
  rw [parts_append, List.length_append]
  omega

/-- The root is an ancestor of every other key. -/
theorem isAncestor_root : isAncestor root key = true ↔ key ≠ root := by
  have hnone : directoryPrefix root = "" := rfl
  have hbegins : Text.beginsWith key "" = true :=
    Text.beginsWith_iff.2 ⟨key, String.empty_append.symm⟩
  unfold isAncestor
  rw [hnone, hbegins, Bool.true_and, bne_iff_ne]

/-- The directory is the key itself or an ancestor of it. -/
def IsOnWay (dir key : Key) : Prop := dir = key ∨ isAncestor dir key = true

theorem isOnWay_root : IsOnWay dir root ↔ dir = root := by
  refine ⟨?_, Or.inl⟩
  rintro (rfl | h)
  · rfl
  · by_contra hdir
    obtain ⟨rest, hrest⟩ := (isAncestor_iff hdir).1 h
    have hempty := String.append_eq_empty_iff.1 (String.append_eq_empty_iff.1 hrest.symm).1
    exact hdir hempty.1

/-- The directories on the way to a child are the child and those on the way to its parent. -/
theorem isOnWay_child (hparent : parent ≠ root) (hname : separator ∉ name.toList) :
    IsOnWay dir (parent ++ "/" ++ name) ↔ dir = parent ++ "/" ++ name ∨ IsOnWay dir parent := by
  have hbelow : isAncestor parent (parent ++ "/" ++ name) = true := isAncestor_below hparent name
  have hchild : parent ++ "/" ++ name ≠ root := by
    intro heq
    exact hparent (String.append_eq_empty_iff.1 (String.append_eq_empty_iff.1 heq).1).1
  refine or_congr Iff.rfl ⟨?_, ?_⟩
  · intro h
    by_cases hdir : dir = root
    · rw [hdir]
      exact Or.inr (isAncestor_root.2 hparent)
    · obtain ⟨rest, hrest⟩ := (isAncestor_iff hdir).1 h
      -- the name has no separator, so the one behind `dir` lies in the parent or behind it
      rcases below_eq_append (hrest.trans String.append_assoc) with ⟨tail, rfl⟩ | ⟨middle, rfl, heq⟩
      · simp only [String.append_assoc, String.append_right_inj] at hrest
        refine absurd ?_ hname
        rw [hrest]
        simp [separator]
      · rw [String.append_assoc] at heq
        rcases separator_append_eq heq with rfl | ⟨tail, rfl⟩
        · exact Or.inl String.append_empty.symm
        · rw [← String.append_assoc]
          exact Or.inr (isAncestor_below hdir tail)
  · rintro (rfl | h)
    · exact hbelow
    · by_cases hdir : dir = root
      · rw [hdir]
        exact isAncestor_root.2 hchild
      · obtain ⟨rest, rfl⟩ := (isAncestor_iff hdir).1 h
        rw [String.append_assoc, String.append_assoc]
        exact isAncestor_below hdir _

/-- The only ancestor of a key without separators is the root. -/
theorem isOnWay_top (hkey : key ≠ root) (h : separator ∉ key.toList) :
    IsOnWay dir key ↔ dir = key ∨ IsOnWay dir root := by
  rw [isOnWay_root]
  refine or_congr Iff.rfl ⟨?_, ?_⟩
  · intro habove
    by_contra hdir
    obtain ⟨rest, rfl⟩ := (isAncestor_iff hdir).1 habove
    exact h (by simp [separator])
  · rintro rfl
    exact isAncestor_root.2 hkey

theorem parent?_child (hname : separator ∉ name.toList) :
    parent? (parent ++ "/" ++ name) = some parent := by
  have hdrop : (parent ++ "/" ++ name).toList.reverse.dropWhile (· != separator) =
      separator :: parent.toList.reverse := by
    have hlist : (parent ++ "/" ++ name).toList.reverse =
        name.toList.reverse ++ separator :: parent.toList.reverse := by simp [separator]
    rw [hlist, List.dropWhile_append_of_pos]
    · simp
    · intro c hc
      simp only [List.mem_reverse] at hc
      exact bne_iff_ne.2 fun heq => hname (heq ▸ hc)
  have hempty : ¬ (parent ++ "/" ++ name).isEmpty = true := by simp
  unfold parent?
  rw [if_neg hempty, hdrop]
  simp

theorem parent?_top (hkey : key ≠ root) (h : separator ∉ key.toList) :
    parent? key = some root := by
  have hdrop : key.toList.reverse.dropWhile (· != separator) = [] := by
    simp only [List.dropWhile_eq_nil_iff, List.mem_reverse]
    exact fun c hc => bne_iff_ne.2 fun heq => h (heq ▸ hc)
  unfold parent?
  rw [if_neg fun hempty => hkey (String.isEmpty_iff.1 hempty), hdrop]
  rfl

/-- The directories on the way to a plain key are the key and those on the way to its parent, which
is the root, or a plain key with one part less. -/
theorem IsPlain.exists_parent (h : IsPlain suffix key) :
    ∃ parent, parent? key = some parent ∧
      (∀ dir, IsOnWay dir key ↔ dir = key ∨ IsOnWay dir parent) ∧
      (parent = root ∨
        IsPlain suffix parent ∧ (parts key).length = (parts parent).length + 1) := by
  rcases exists_last key with hname | ⟨parent, name, rfl, hname⟩
  · exact ⟨root, parent?_top h.ne_root hname, fun _ => isOnWay_top h.ne_root hname, Or.inl rfl⟩
  · have hparent := (isPlain_append.1 h).1
    refine ⟨parent, parent?_child hname, fun _ => isOnWay_child hparent.ne_root hname, ?_⟩
    refine Or.inr ⟨hparent, ?_⟩
    rw [parts_append, parts_of_not_mem hname, List.length_append, List.length_singleton]

end BucketTree.Key
