import BucketTree.Proofs.Store.Contents
import BucketTree.Proofs.Text.Order
import BucketTree.Store.Grouping

/-!
# The names that a listing serves

`Represents` states which served name stands for a key: the key itself, or the shortest prefix of it
that ends with the delimiter after the requested prefix. `ServedName.ofKey` computes that name
(`ofKey_eq_of_represents`) and is monotone, so that the keys of one group are neighbours and the
served names are strictly increasing (`servedNames_increasing`).
-/

set_option autoImplicit false

namespace BucketTree

namespace ServedName

/-- The served name that stands for a key with the prefix `under`. If the delimiter is empty or does
not occur after the prefix, it is the key itself; otherwise it is the group that ends with the first
occurrence of the delimiter. -/
inductive Represents (under delimiter : String) : ServedName → Key → Prop
  | key (rest : String) (halone : delimiter = "" ∨ ¬ delimiter.toList <:+: rest.toList) :
      Represents under delimiter ⟨under ++ rest, false⟩ (under ++ rest)
  | group (first rest : String) (hdelimiter : delimiter ≠ "")
      (hends : delimiter.toList <:+ first.toList)
      (hfirst : ∀ p, p <+: first.toList → delimiter.toList <:+ p → p = first.toList) :
      Represents under delimiter ⟨under ++ first, true⟩ (under ++ (first ++ rest))

theorem Represents.beginsWith {under delimiter : String} {e : ServedName} {key : Key}
    (h : Represents under delimiter e key) : ∃ rest, key = under ++ rest := by
  cases h with
  | key rest halone => exact ⟨rest, rfl⟩
  | group first rest hdelimiter hends hfirst => exact ⟨first ++ rest, rfl⟩

theorem ofKey_append (under delimiter rest : String) :
    ofKey under delimiter (under ++ rest) =
      if delimiter.isEmpty then ⟨under ++ rest, false⟩
      else
        match Text.through? delimiter.toList rest.toList with
        | some first => ⟨under ++ String.ofList first, true⟩
        | none => ⟨under ++ rest, false⟩ := by
  have hrest : (under ++ rest).toList.drop under.toList.length = rest.toList := by
    rw [String.toList_append, List.drop_left]
  exact hrest ▸ rfl

/-- The function `ofKey` represents the key. -/
theorem represents_ofKey (under delimiter rest : String) :
    Represents under delimiter (ofKey under delimiter (under ++ rest)) (under ++ rest) := by
  rw [ofKey_append]
  split
  next hempty => exact .key rest (Or.inl (String.isEmpty_iff.1 hempty))
  next hdelimiter =>
    split
    next first hfirst =>
      obtain ⟨⟨tail, htail⟩, hends, hleast⟩ := Text.through?_eq_some.1 hfirst
      have hrest : rest = String.ofList first ++ String.ofList tail := by
        rw [← String.ofList_append, htail, String.ofList_toList]
      rw [hrest]
      refine .group _ _ (fun h => hdelimiter (String.isEmpty_iff.2 h)) ?_ ?_
      · rwa [String.toList_ofList]
      · rwa [String.toList_ofList]
    next hnone => exact .key rest (Or.inr (Text.through?_eq_none.1 hnone))

/-- Only one served name represents a key, namely `ofKey`. -/
theorem ofKey_eq_of_represents {under delimiter : String} {e : ServedName} {key : Key}
    (h : Represents under delimiter e key) : ofKey under delimiter key = e := by
  cases h with
  | key rest halone =>
      rw [ofKey_append]
      rcases halone with rfl | hnone
      · rfl
      · rw [Text.through?_eq_none.2 hnone]
        exact ite_self _
  | group first rest hdelimiter hends hfirst =>
      have hthrough :
          Text.through? delimiter.toList (first ++ rest).toList = some first.toList := by
        rw [Text.through?_eq_some, String.toList_append]
        exact ⟨List.prefix_append _ _, hends, hfirst⟩
      rw [ofKey_append, hthrough, if_neg (fun h => hdelimiter (String.isEmpty_iff.1 h))]
      simp only [String.ofList_toList]

/-- A property of some name that represents the key is a property of every such name. -/
theorem exists_represents {under delimiter : String} {e : ServedName} {key : Key}
    (h : Represents under delimiter e key) {holds : ServedName → Prop} :
    (∃ served, Represents under delimiter served key ∧ holds served) ↔ holds e := by
  constructor
  · rintro ⟨served, hserved, hholds⟩
    rwa [← ofKey_eq_of_represents h, ofKey_eq_of_represents hserved]
  · intro hholds
    exact ⟨e, h, hholds⟩

/-- The function `ofKey` is monotone: for keys in order, the names are equal or in the same
order. -/
theorem ofKey_increasing {under delimiter a b : String} (h : under ++ a < under ++ b) :
    ofKey under delimiter (under ++ a) = ofKey under delimiter (under ++ b) ∨
      (ofKey under delimiter (under ++ a)).name < (ofKey under delimiter (under ++ b)).name := by
  have hlists : a.toList < b.toList := by
    rw [String.lt_iff, String.toList_append, String.toList_append] at h
    exact Text.lt_of_append_lt_append h
  rw [ofKey_append, ofKey_append]
  split
  next => exact Or.inr h
  next =>
    cases ha : Text.through? delimiter.toList a.toList with
    | none =>
        cases hb : Text.through? delimiter.toList b.toList with
        | none => exact Or.inr h
        | some q =>
            obtain ⟨hq, hends⟩ := Text.through?_spec hb
            -- `a` holds no delimiter, so it does not start with a group
            have hbegins : ¬ q <+: a.toList := fun hbegins =>
              Text.through?_eq_none.1 ha (hends.isInfix.trans hbegins.isInfix)
            refine Or.inr (Text.append_lt_append_left under ?_)
            rw [String.toList_ofList]
            exact Text.lt_of_lt_of_prefix hlists hq hbegins
    | some p =>
        -- the name of `a` is a start of it, so it comes before `b` as well
        obtain ⟨hp, -⟩ := Text.through?_spec ha
        have hpb := Text.lt_of_prefix_of_lt hp hlists
        cases hb : Text.through? delimiter.toList b.toList with
        | none =>
            refine Or.inr (Text.append_lt_append_left under ?_)
            rw [String.toList_ofList]
            exact hpb
        | some q =>
            obtain ⟨hq, hends⟩ := Text.through?_spec hb
            by_cases hbegins : q <+: p
            · -- then the delimiter ends at the same place in both
              apply Or.inl
              rw [Text.eq_of_through? ha hbegins hends]
            · refine Or.inr (Text.append_lt_append_left under ?_)
              rw [String.toList_ofList, String.toList_ofList]
              exact Text.lt_of_lt_of_prefix hpb hq hbegins

/-! ## Neighbours -/

theorem mem_squeeze {e : ServedName} {names : List ServedName} :
    e ∈ squeeze names ↔ e ∈ names := by
  induction names with
  | nil => rfl
  | cons first rest ih =>
      cases rest with
      | nil => rfl
      | cons next rest =>
          unfold squeeze
          split
          next heq =>
            subst heq
            rw [ih]
            refine ⟨List.mem_cons_of_mem _, fun h => ?_⟩
            rcases List.mem_cons.1 h with rfl | h
            · exact List.mem_cons_self
            · exact h
          next =>
            rw [List.mem_cons, ih]
            exact List.mem_cons.symm

/-- The function `squeeze` turns a list in which each name equals the one before or comes after it
into a strictly increasing list. -/
theorem squeeze_increasing {names : List ServedName}
    (h : names.Pairwise fun a b => a = b ∨ a.name < b.name) :
    (squeeze names).Pairwise fun a b => a.name < b.name := by
  induction names with
  | nil => exact .nil
  | cons first rest ih =>
      obtain ⟨hfirst, hrest⟩ := List.pairwise_cons.1 h
      cases rest with
      | nil => exact List.pairwise_singleton _ _
      | cons next rest =>
          unfold squeeze
          split
          next => exact ih hrest
          next hne =>
            refine List.pairwise_cons.2 ⟨?_, ih hrest⟩
            intro e he
            have hnext := (hfirst next List.mem_cons_self).resolve_left hne
            -- all that is left comes from `next` on, and so after `first`
            rcases List.mem_cons.1 (mem_squeeze.1 he) with rfl | he
            · exact hnext
            · rcases (List.pairwise_cons.1 hrest).1 e he with rfl | hlt
              · exact hnext
              · exact String.lt_trans hnext hlt

/-- The function `squeeze` leaves a list without repetitions alone. -/
theorem squeeze_eq_self {names : List ServedName} (h : names.Nodup) : squeeze names = names := by
  induction names with
  | nil => rfl
  | cons first rest ih =>
      obtain ⟨hfirst, hrest⟩ := List.nodup_cons.1 h
      cases rest with
      | nil => rfl
      | cons next rest =>
          unfold squeeze
          rw [if_neg, ih hrest]
          rintro rfl
          exact hfirst List.mem_cons_self

theorem length_squeeze_le (names : List ServedName) : (squeeze names).length ≤ names.length := by
  induction names with
  | nil => exact Nat.le_refl _
  | cons first rest ih =>
      cases rest with
      | nil => exact Nat.le_refl _
      | cons next rest =>
          unfold squeeze
          split
          · exact Nat.le_succ_of_le ih
          · exact Nat.succ_le_succ ih

end ServedName

namespace Bucket

/-- There are at most as many served names as keys. -/
theorem length_servedNames_le (under delimiter : String) (b : Bucket) :
    (b.servedNames under delimiter).length ≤ b.keys.length := by
  refine (ServedName.length_squeeze_le _).trans ?_
  rw [List.length_map]
  exact b.length_keysUnder_le under

/-- The served names are strictly increasing. -/
theorem servedNames_increasing (under delimiter : String) (b : Bucket) :
    (b.servedNames under delimiter).Pairwise fun x y => x.name < y.name := by
  refine ServedName.squeeze_increasing (List.pairwise_map.2 ?_)
  apply (b.keysUnder_increasing under).imp_of_mem
  intro x y hx hy hlt
  obtain ⟨-, a, rfl⟩ := mem_keysUnder.1 hx
  obtain ⟨-, c, rfl⟩ := mem_keysUnder.1 hy
  exact ServedName.ofKey_increasing hlt

/-- The served names are those that represent a key of the bucket. -/
theorem mem_servedNames {under delimiter : String} {b : Bucket} {e : ServedName} :
    e ∈ b.servedNames under delimiter ↔
      ∃ key, b.contents key ≠ none ∧ ServedName.Represents under delimiter e key := by
  unfold servedNames
  rw [ServedName.mem_squeeze, List.mem_map]
  constructor
  · rintro ⟨key, hkey, rfl⟩
    obtain ⟨hpresent, rest, rfl⟩ := mem_keysUnder.1 hkey
    exact ⟨_, hpresent, ServedName.represents_ofKey under delimiter rest⟩
  · rintro ⟨key, hpresent, hrepresents⟩
    refine ⟨key, mem_keysUnder.2 ⟨hpresent, hrepresents.beginsWith⟩, ?_⟩
    exact ServedName.ofKey_eq_of_represents hrepresents

/-- Without a delimiter the served names are the keys with the prefix. -/
theorem servedNames_ungrouped (under : String) (b : Bucket) :
    b.servedNames under "" = (b.keysUnder under).map fun key => ⟨key, false⟩ := by
  show ServedName.squeeze ((b.keysUnder under).map fun key => ⟨key, false⟩) = _
  refine ServedName.squeeze_eq_self (List.pairwise_map.2 ?_)
  apply (b.keysUnder_increasing under).imp
  intro x y hlt heq
  obtain rfl : x = y := congrArg ServedName.name heq
  exact String.lt_irrefl _ hlt

end Bucket

end BucketTree
