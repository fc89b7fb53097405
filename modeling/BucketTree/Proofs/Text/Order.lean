import BucketTree.Proofs.Text.Affix

/-!
# The order of texts

Texts are ordered lexicographically by their characters. A prefix of a text does not come after it,
and of two texts in order, either the first is a prefix of the second, or their order does not
depend on what follows them.
-/

set_option autoImplicit false

namespace BucketTree.Text

/-- Two texts in order, the first of which is no prefix of the second, stay in order when they are
continued. -/
theorem append_lt_append {a b : List Char} (h : a < b) (hbegins : ¬ a <+: b) (u v : List Char) :
    a ++ u < b ++ v := by
  induction a generalizing b with
  | nil => exact absurd List.nil_prefix hbegins
  | cons x a ih =>
      cases b with
      | nil => exact absurd h (List.not_lt_nil _)
      | cons y b =>
          show x :: (a ++ u) < y :: (b ++ v)
          rw [List.cons_lt_cons_iff] at h ⊢
          rcases h with hlt | ⟨rfl, hlt⟩
          · exact Or.inl hlt
          · refine Or.inr ⟨rfl, ih hlt fun hab => hbegins ?_⟩
            exact List.cons_prefix_cons.2 ⟨rfl, hab⟩

/-- A common prefix does not affect the order. -/
theorem append_lt_append_left (head : String) {a b : String} (h : a.toList < b.toList) :
    head ++ a < head ++ b := by
  rw [String.lt_iff, String.toList_append, String.toList_append]
  exact List.append_left_lt h

theorem lt_of_append_lt_append {head a b : List Char} (h : head ++ a < head ++ b) : a < b := by
  induction head with
  | nil => exact h
  | cons c head ih =>
      rcases List.cons_lt_cons_iff.1 h with hlt | ⟨-, hlt⟩
      · exact absurd hlt (Char.lt_irrefl c)
      · exact ih hlt

/-- A prefix of a text comes before every text that the text comes before. -/
theorem lt_of_prefix_of_lt {p a b : List Char} (hp : p <+: a) (h : a < b) : p < b :=
  List.lt_of_le_of_lt hp.le h

/-- A text comes before every prefix of a later text that is not a prefix of it. -/
theorem lt_of_lt_of_prefix {a q b : List Char} (h : a < b) (hq : q <+: b) (hbegins : ¬ q <+: a) :
    a < q := by
  obtain ⟨tail, rfl⟩ := hq
  rcases Std.lt_trichotomy (a := a) (b := q) with hlt | rfl | hgt
  · exact hlt
  · exact absurd List.prefix_rfl hbegins
  · -- otherwise the order would be settled the other way within `q`
    have hback := append_lt_append hgt hbegins tail []
    rw [List.append_nil] at hback
    exact absurd hback (List.lt_asymm h)

end BucketTree.Text
