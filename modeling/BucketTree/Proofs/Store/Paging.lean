import BucketTree.Proofs.Store.Answers
import BucketTree.Proofs.Store.Grouping

/-!
# Pages

`Page.names` merges the keys and the groups of a page in the order of their names. A page of the
store shows an initial segment of the names that it is cut from (`names_pageOf`). Its continuation
token, if any, is its last name, and the names that it leaves over are those after the token
(`next_eq_some`, `namesAfter_leftOver`).
-/

set_option autoImplicit false

namespace BucketTree

namespace ServedName

/-- Served names compared by their texts. -/
def NotAfter (a b : ServedName) : Prop := a.name ≤ b.name

instance : DecidableRel NotAfter := fun a b => inferInstanceAs (Decidable (a.name ≤ b.name))

instance : Std.Total NotAfter := ⟨fun a b => String.le_total a.name b.name⟩

instance : IsTrans ServedName NotAfter := ⟨fun _ _ _ => String.le_trans⟩

end ServedName

/-- The keys and groups of a page, merged in the order of their names. -/
def Page.names (p : Page) : List ServedName :=
  List.insertionSort ServedName.NotAfter
    ((p.keys.getD []).map (fun key => ⟨key, false⟩) ++
      (p.groups.getD []).map (fun group => ⟨group, true⟩))

namespace Bucket

/-- A list of served names of one sort is determined by the texts. -/
theorem map_name_eq {isGroup : Bool} {names : List ServedName}
    (h : ∀ e ∈ names, e.isGroup = isGroup) :
    (names.map (·.name)).map (fun name => (⟨name, isGroup⟩ : ServedName)) = names := by
  induction names with
  | nil => rfl
  | cons e rest ih =>
      rw [List.map_cons, List.map_cons, ih fun e he => h e (List.mem_cons_of_mem _ he)]
      obtain rfl := h e List.mem_cons_self
      rfl

/-- In a strictly increasing list, a served name is determined by its text. -/
theorem eq_of_name_eq {names : List ServedName} (h : names.Pairwise fun a b => a.name < b.name) :
    ∀ a ∈ names, ∀ b ∈ names, a.name = b.name → a = b := by
  induction names with
  | nil => exact fun a ha => absurd ha List.not_mem_nil
  | cons first rest ih =>
      obtain ⟨hfirst, hrest⟩ := List.pairwise_cons.1 h
      intro a ha b hb heq
      rcases List.mem_cons.1 ha with rfl | ha'
      · rcases List.mem_cons.1 hb with rfl | hb'
        · rfl
        · have hlt := hfirst b hb'
          rw [heq] at hlt
          exact absurd hlt (String.lt_irrefl _)
      · rcases List.mem_cons.1 hb with rfl | hb'
        · have hlt := hfirst a ha'
          rw [heq] at hlt
          exact absurd hlt (String.lt_irrefl _)
        · exact ih hrest a ha' b hb' heq

/-- A page shows an initial segment of the names, up to their order. -/
theorem names_pageOf_perm (names : List ServedName) (size : Nat) :
    (pageOf names size).names.Perm (names.take size) := by
  apply (List.perm_insertionSort _ _).trans
  show (List.map _ (List.map _ ((names.take size).filter fun e : ServedName => !e.isGroup)) ++
    List.map _ (List.map _ ((names.take size).filter fun e : ServedName => e.isGroup))).Perm _
  rw [map_name_eq, map_name_eq]
  · apply List.perm_append_comm.trans
    exact List.filter_append_perm _ _
  · intro e he
    exact (List.mem_filter.1 he).2
  · intro e he
    simpa using (List.mem_filter.1 he).2

/-- A page of increasing names shows an initial segment of them. -/
theorem names_pageOf {names : List ServedName} (h : names.Pairwise fun a b => a.name < b.name)
    (size : Nat) : (pageOf names size).names = names.take size := by
  have htake := h.sublist (List.take_sublist size names)
  have hperm := names_pageOf_perm names size
  refine List.Perm.eq_of_pairwise ?_ (List.pairwise_insertionSort ServedName.NotAfter _) ?_ hperm
  · -- no two names of the page are equal, so the order by names is antisymmetric on it
    intro a b ha hb hab hba
    exact eq_of_name_eq htake a (hperm.mem_iff.1 ha) b hb (String.le_antisymm hab hba)
  · apply htake.imp
    intro a b hlt
    exact Std.le_of_lt hlt

/-- A page without a continuation token shows all of the names. -/
theorem take_of_next_none {names : List ServedName} {size : Nat} (hsize : 1 ≤ size)
    (h : (pageOf names size).next = none) : names.length ≤ size := by
  by_contra hmore
  have hlt : size < names.length := Nat.not_le.1 hmore
  -- more names follow, so the page has a last name unless it is empty
  have hlast : (names.take size).getLast? = none := by
    unfold pageOf at h
    dsimp only at h
    rw [if_pos hlt] at h
    exact Option.map_eq_none_iff.1 h
  rcases List.take_eq_nil_iff.1 (List.getLast?_eq_none_iff.1 hlast) with hzero | hnil
  · omega
  · rw [hnil] at hlt
    exact Nat.not_lt_zero _ hlt

/-- The continuation token of a page is its last name, and every name left over comes after it. -/
theorem next_eq_some {names : List ServedName} {size : Nat} {token : String}
    (hsorted : names.Pairwise fun a b => a.name < b.name)
    (h : (pageOf names size).next = some token) :
    size < names.length ∧ (∃ last ∈ names.take size, last.name = token) ∧
      (∀ e ∈ names.take size, e.name ≤ token) ∧ ∀ e ∈ names.drop size, token < e.name := by
  unfold pageOf at h
  dsimp only at h
  have hlt : size < names.length := by
    by_contra hall
    rw [if_neg hall] at h
    cases h
  rw [if_pos hlt] at h
  obtain ⟨last, hlast, rfl⟩ := Option.map_eq_some_iff.1 h
  have hmem := List.mem_of_getLast? hlast
  rw [← List.take_append_drop size names] at hsorted
  obtain ⟨htake, -, hcross⟩ := List.pairwise_append.1 hsorted
  refine ⟨hlt, ⟨last, hmem, rfl⟩, ?_, hcross last hmem⟩
  intro e he
  obtain ⟨init, hinit⟩ := List.getLast?_eq_some_iff.1 hlast
  rw [hinit] at he htake
  rcases List.mem_append.1 he with he | he
  · exact Std.le_of_lt ((List.pairwise_append.1 htake).2.2 e he last (List.mem_singleton.2 rfl))
  · obtain rfl := List.mem_singleton.1 he
    exact String.le_refl _

/-- The names after the continuation token of a page are those that the page left over. -/
theorem namesAfter_next {names : List ServedName} {size : Nat} {token : String}
    (hsorted : names.Pairwise fun a b => a.name < b.name)
    (h : (pageOf names size).next = some token) :
    namesAfter (some token) names = names.drop size := by
  obtain ⟨-, -, htake, hdrop⟩ := next_eq_some hsorted h
  show names.filter (fun e => token < e.name) = _
  rw [← List.take_append_drop size names, List.filter_append, List.filter_eq_nil_iff.2,
    List.filter_eq_self.2, List.nil_append, List.take_append_drop]
  · intro e he
    exact decide_eq_true (hdrop e he)
  · intro e he hlt
    exact String.not_lt.2 (htake e he) (of_decide_eq_true hlt)

/-- The function `namesAfter` keeps the names after the token. -/
theorem mem_namesAfter {after : Option String} {names : List ServedName} {e : ServedName} :
    e ∈ namesAfter after names ↔ e ∈ names ∧ ∀ token, after = some token → token < e.name := by
  unfold namesAfter
  cases after with
  | none =>
      refine ⟨fun h => ⟨h, fun token htoken => ?_⟩, fun h => h.1⟩
      cases htoken
  | some token =>
      rw [List.mem_filter]
      refine and_congr_right fun _ => ⟨?_, fun h => decide_eq_true (h token rfl)⟩
      rintro hlt _ ⟨⟩
      exact of_decide_eq_true hlt

theorem namesAfter_increasing (after : Option String) (under delimiter : String) (b : Bucket) :
    (namesAfter after (b.servedNames under delimiter)).Pairwise fun x y => x.name < y.name := by
  have hsorted := b.servedNames_increasing under delimiter
  unfold namesAfter
  cases after with
  | none => exact hsorted
  | some token => exact hsorted.filter _

/-- Cutting the names at an earlier token first makes no difference. -/
theorem namesAfter_namesAfter {after : Option String} {token : String} {names : List ServedName}
    (h : ∀ start, after = some start → start < token) :
    namesAfter (some token) (namesAfter after names) = namesAfter (some token) names := by
  cases after with
  | none => rfl
  | some start =>
      show (names.filter _).filter _ = names.filter _
      rw [List.filter_filter]
      refine List.filter_congr fun e _ => ?_
      by_cases hlt : token < e.name
      · simp [hlt, String.lt_trans (h start rfl) hlt]
      · simp [hlt]

/-- For a page cut from the names after a token, the names after its own continuation token are
those that it left over. -/
theorem namesAfter_leftOver {after : Option String} {names : List ServedName} {size : Nat}
    {token : String} (hsorted : (namesAfter after names).Pairwise fun a b => a.name < b.name)
    (h : (pageOf (namesAfter after names) size).next = some token) :
    namesAfter (some token) names = (namesAfter after names).drop size := by
  obtain ⟨-, ⟨last, hlast, rfl⟩, -, -⟩ := next_eq_some hsorted h
  rw [← namesAfter_next hsorted h,
    namesAfter_namesAfter (mem_namesAfter.1 (List.mem_of_mem_take hlast)).2]

/-- The keys of a page are served names that are no groups. -/
theorem mem_pageOf_keys {names : List ServedName} {size : Nat} {keys : List Key} {key : Key}
    (hkeys : (pageOf names size).keys = some keys) (h : key ∈ keys) : ⟨key, false⟩ ∈ names := by
  cases hkeys
  obtain ⟨⟨name, isGroup⟩, hserved, rfl⟩ := List.mem_map.1 h
  obtain ⟨htake, hgroup⟩ := List.mem_filter.1 hserved
  rw [Bool.not_eq_true'] at hgroup
  subst hgroup
  exact List.mem_of_mem_take htake

/-- The keys of a page are keys of the bucket with the requested prefix. -/
theorem mem_page_keys {b : Bucket} {request : PageRequest} {size : Nat} {keys : List Key}
    {key : Key} (hkeys : (b.page request size).keys = some keys) (h : key ∈ keys) :
    b.contents key ≠ none ∧ ∃ rest, key = request.under.getD "" ++ rest := by
  have hserved := mem_pageOf_keys hkeys h
  obtain ⟨under, hpresent, hrepresents⟩ := mem_servedNames.1 (mem_namesAfter.1 hserved).1
  cases hrepresents with
  | key rest => exact ⟨hpresent, rest, rfl⟩

end Bucket

end BucketTree
