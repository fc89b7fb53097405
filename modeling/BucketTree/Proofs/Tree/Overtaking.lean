import BucketTree.Proofs.Tree.Entries

/-!
# Groups that overtake keys

A page of a listing has separate lists of groups and keys, and the entries of the groups are added
first. So a listing of one level adds its entries in page order (`pageOrder`), not in store order.
The two differ exactly when a group overtakes a key: the key comes before the group on their page,
both show an entry that is new, and the two entries differ (`Overtakes`, `unseen_pageOrder_iff`).
-/

set_option autoImplicit false

namespace BucketTree

namespace DirectoryEntry

/-! ## Entries that are new -/

/-- The entries that are not in `seen`, each at its first occurrence. -/
def unseen (seen : List DirectoryEntry) : List DirectoryEntry → List DirectoryEntry
  | [] => []
  | e :: rest => if e ∈ seen then unseen seen rest else e :: unseen (seen ++ [e]) rest

variable {seen seen' new : List DirectoryEntry} {e : DirectoryEntry}

/-- Adding entries one by one appends the unseen ones. -/
theorem foldl_addNew (new seen : List DirectoryEntry) :
    new.foldl addNew seen = seen ++ unseen seen new := by
  induction new generalizing seen with
  | nil => simp [unseen]
  | cons e rest ih =>
      rw [List.foldl_cons, ih, addNew, unseen]
      by_cases h : e ∈ seen
      · simp [h]
      · simp [h]

/-- The function `unseen` depends only on the set of entries seen. -/
theorem unseen_congr (h : ∀ e, e ∈ seen ↔ e ∈ seen') (new : List DirectoryEntry) :
    unseen seen new = unseen seen' new := by
  induction new generalizing seen seen' with
  | nil => rfl
  | cons e rest ih =>
      have hnext : ∀ a, a ∈ seen ++ [e] ↔ a ∈ seen' ++ [e] := by simp [h]
      simp only [unseen, h, ih h, ih hnext]

theorem unseen_cons (e : DirectoryEntry) (seen rest : List DirectoryEntry) :
    unseen seen (e :: rest) = (if e ∈ seen then [] else [e]) ++ unseen (seen ++ [e]) rest := by
  rw [unseen]
  by_cases h : e ∈ seen
  · have hsame : ∀ a, a ∈ seen ↔ a ∈ seen ++ [e] := by
      intro a
      simp only [List.mem_append, List.mem_singleton, iff_self_or]
      rintro rfl
      exact h
    simp [h, unseen_congr hsame]
  · simp [h]

/-- The function `unseen` of a concatenation. -/
theorem unseen_append (a b seen : List DirectoryEntry) :
    unseen seen (a ++ b) = unseen seen a ++ unseen (seen ++ a) b := by
  induction a generalizing seen with
  | nil => simp [unseen]
  | cons e rest ih => simp [unseen_cons, ih]

theorem mem_unseen : e ∈ unseen seen new ↔ e ∈ new ∧ e ∉ seen := by
  induction new generalizing seen with
  | nil => simp [unseen]
  | cons first rest ih =>
      rw [unseen]
      by_cases h : first ∈ seen
      · rw [if_pos h, ih, List.mem_cons, or_and_right]
        refine (or_iff_right ?_).symm
        rintro ⟨rfl, hnew⟩
        exact hnew h
      · rw [if_neg h, List.mem_cons, List.mem_cons, ih, List.mem_append, List.mem_singleton]
        by_cases hfirst : e = first
        · simp [hfirst, h]
        · simp [hfirst]

theorem nodup_unseen (seen new : List DirectoryEntry) : (unseen seen new).Nodup := by
  induction new generalizing seen with
  | nil => exact .nil
  | cons first rest ih =>
      rw [unseen]
      split
      · exact ih seen
      · refine List.nodup_cons.2 ⟨fun hmem => ?_, ih _⟩
        exact (mem_unseen.1 hmem).2 (List.mem_append_right _ (List.mem_singleton.2 rfl))

/-- Lists with the same members have the same unseen entries, up to order. -/
theorem unseen_perm {a b : List DirectoryEntry} (h : ∀ e, e ∈ a ↔ e ∈ b) :
    (unseen seen a).Perm (unseen seen b) := by
  refine (List.perm_ext_iff_of_nodup (nodup_unseen _ _) (nodup_unseen _ _)).2 fun e => ?_
  rw [mem_unseen, mem_unseen, h]

/-- The first entry that is new. -/
theorem head?_unseen (seen new : List DirectoryEntry) :
    (unseen seen new).head? = new.find? fun e => e ∉ seen := by
  induction new with
  | nil => rfl
  | cons first rest ih =>
      rw [unseen]
      by_cases h : first ∈ seen
      · simp [h, ih]
      · simp [h]

/-- An entry that was seen can be removed. -/
theorem unseen_skip (h : e ∈ seen) (a b : List DirectoryEntry) :
    unseen seen (a ++ e :: b) = unseen seen (a ++ b) := by
  rw [unseen_append, unseen_append, unseen, if_pos (List.mem_append_left _ h)]

/-- An entry can be moved to the front if it was seen, or if it is the first unseen entry of the
part before it. -/
theorem unseen_front (a b : List DirectoryEntry)
    (h : e ∈ seen ∨ ∀ next, a.find? (fun x => x ∉ seen) = some next → next = e) :
    unseen seen (a ++ e :: b) = unseen seen (e :: (a ++ b)) := by
  by_cases hseen : e ∈ seen
  · rw [unseen_skip hseen, unseen, if_pos hseen]
  · -- seen entries in front are skipped, and the first one that is new is the entry itself
    replace h := h.resolve_left hseen
    have hlast : e ∈ seen ++ [e] := List.mem_append_right _ (List.mem_singleton.2 rfl)
    induction a with
    | nil => rfl
    | cons first rest ih =>
        by_cases hfirst : first ∈ seen
        · rw [List.find?_cons_of_neg (by simpa using hfirst)] at h
          have hskip := unseen_skip hfirst [e] (rest ++ b)
          rw [List.cons_append, unseen, if_pos hfirst, ih h]
          exact hskip.symm
        · rw [List.find?_cons_of_pos (by simpa using hfirst)] at h
          obtain rfl := h first rfl
          rw [List.cons_append, unseen, if_neg hfirst, unseen_skip hlast, List.cons_append, unseen,
            if_neg hfirst, unseen, if_pos hlast]

/-! ## What the names of a page show -/

/-- The own entries of served names, in their order. -/
def shown (suffix under : String) (names : List ServedName) : List DirectoryEntry :=
  names.filterMap (ofServed? suffix under)

variable {suffix under : String} {size : Nat} {page names : List ServedName}

theorem shown_append (a b : List ServedName) :
    shown suffix under (a ++ b) = shown suffix under a ++ shown suffix under b :=
  List.filterMap_append

theorem shown_cons (served : ServedName) (rest : List ServedName) :
    shown suffix under (served :: rest) =
      (ofServed? suffix under served).toList ++ shown suffix under rest := by
  rw [shown, List.filterMap_cons]
  cases ofServed? suffix under served <;> rfl

/-- The names of a page in the order of its chunk, the groups before the keys. -/
def groupsFirst (page : List ServedName) : List ServedName :=
  (page.filter fun served => served.isGroup) ++ page.filter fun served => !served.isGroup

theorem groupsFirst_perm (page : List ServedName) : (groupsFirst page).Perm page :=
  List.filter_append_perm _ _

/-- A chunk of one level shows the entries of its names, those of the groups first. -/
theorem ofChunk_level (names : List ServedName) (size : Nat) :
    ofChunk suffix under false (Chunk.ofNames names size) =
      shown suffix under (groupsFirst (names.take size)) := by
  have hlevel : withAncestors false = fun e : DirectoryEntry => [e] := rfl
  unfold ofChunk Chunk.ofNames shown groupsFirst
  rw [hlevel, List.flatMap_singleton', List.filterMap_append, List.filterMap_map,
    List.filterMap_map]
  have hgroups : ∀ served ∈ (names.take size).filter fun served => served.isGroup,
      (ofGroup? under ∘ ServedName.name) served = ofServed? suffix under served := by
    intro served hserved
    simp only [Function.comp_apply, ofServed?, (List.mem_filter.1 hserved).2, if_true]
  have hkeys : ∀ served ∈ (names.take size).filter fun served => !served.isGroup,
      (ofKey? suffix under ∘ ServedName.name) served = ofServed? suffix under served := by
    intro served hserved
    have hkey := (List.mem_filter.1 hserved).2
    rw [Bool.not_eq_true'] at hkey
    simp only [Function.comp_apply, ofServed?, hkey, Bool.false_eq_true, if_false]
  rw [List.filterMap_congr hgroups, List.filterMap_congr hkeys]

/-- The first unseen entry of the groups among the names. -/
def nextOfGroups? (suffix under : String) (seen : List DirectoryEntry) (names : List ServedName) :
    Option DirectoryEntry :=
  (shown suffix under (names.filter fun served => served.isGroup)).find? fun e => e ∉ seen

/-- A group overtakes a key on a page: the key shows an unseen entry, and the first unseen entry of
the groups after it is a different one. -/
inductive OvertakesOn (suffix under : String) : List DirectoryEntry → List ServedName → Prop
  | here {seen : List DirectoryEntry} {key : ServedName} {rest : List ServedName}
      {e next : DirectoryEntry} (hkey : key.isGroup = false)
      (hshows : ofServed? suffix under key = some e) (hnew : e ∉ seen)
      (hnext : nextOfGroups? suffix under seen rest = some next) (hother : next ≠ e) :
      OvertakesOn suffix under seen (key :: rest)
  | behind {seen : List DirectoryEntry} {served : ServedName} {rest : List ServedName}
      (h : OvertakesOn suffix under (seen ++ (ofServed? suffix under served).toList) rest) :
      OvertakesOn suffix under seen (served :: rest)

/-- A group overtakes the first name of a page, or a later one. -/
theorem overtakesOn_cons {served : ServedName} {rest : List ServedName} :
    OvertakesOn suffix under seen (served :: rest) ↔
      (served.isGroup = false ∧ ∃ e next, ofServed? suffix under served = some e ∧ e ∉ seen ∧
        nextOfGroups? suffix under seen rest = some next ∧ next ≠ e) ∨
      OvertakesOn suffix under (seen ++ (ofServed? suffix under served).toList) rest := by
  constructor
  · intro h
    cases h with
    | here hkey hshows hnew hnext hother => exact Or.inl ⟨hkey, _, _, hshows, hnew, hnext, hother⟩
    | behind h => exact Or.inr h
  · rintro (⟨hkey, e, next, hshows, hnew, hnext, hother⟩ | h)
    · exact .here hkey hshows hnew hnext hother
    · exact .behind h

/-- A key placed behind the groups that follow it. The order of the unseen entries changes exactly
when its entry is unseen and differs from the first unseen one of these groups. -/
theorem unseen_waiting_iff {served : ServedName} {rest : List ServedName} {e : DirectoryEntry}
    (hkey : served.isGroup = false) (hshows : ofServed? suffix under served = some e) :
    unseen seen (shown suffix under (groupsFirst (served :: rest))) =
        unseen seen (shown suffix under (served :: rest)) ↔
      ¬ (e ∉ seen ∧ ∃ next, nextOfGroups? suffix under seen rest = some next ∧ next ≠ e) ∧
        unseen (seen ++ [e]) (shown suffix under (groupsFirst rest)) =
          unseen (seen ++ [e]) (shown suffix under rest) := by
  have hwaits : shown suffix under (groupsFirst (served :: rest)) =
      shown suffix under (rest.filter fun served => served.isGroup) ++
        e :: shown suffix under (rest.filter fun served => !served.isGroup) := by
    simp [groupsFirst, hkey, shown_append, shown_cons, hshows]
  have hinOrder : shown suffix under (served :: rest) = e :: shown suffix under rest := by
    simp [shown_cons, hshows]
  rw [hwaits, hinOrder]
  by_cases hovertaken : e ∉ seen ∧
      ∃ next, nextOfGroups? suffix under seen rest = some next ∧ next ≠ e
  · refine iff_of_false (fun hsame => ?_) fun h => h.1 hovertaken
    obtain ⟨hnew, next, hnext, hother⟩ := hovertaken
    -- the first new entries are those of the group and of the key
    have hgroup : (unseen seen (shown suffix under (rest.filter fun served => served.isGroup) ++
        e :: shown suffix under (rest.filter fun served => !served.isGroup))).head? =
          some next := by
      rw [head?_unseen, List.find?_append, ← nextOfGroups?, hnext, Option.some_or]
    rw [hsame, unseen, if_neg hnew, List.head?_cons] at hgroup
    exact hother (Option.some.inj hgroup).symm
  · have hfront : e ∈ seen ∨
        ∀ next, nextOfGroups? suffix under seen rest = some next → next = e := by
      by_contra hnot
      simp only [not_or, not_forall] at hnot
      obtain ⟨hnew, next, hnext, hother⟩ := hnot
      exact hovertaken ⟨hnew, next, hnext, hother⟩
    rw [unseen_front _ _ hfront, ← shown_append, unseen_cons, unseen_cons, List.append_right_inj,
      and_iff_right hovertaken]
    rfl

/-- Placing the groups of a page first keeps the order of the unseen entries exactly when no group
overtakes a key. -/
theorem unseen_groupsFirst_iff :
    unseen seen (shown suffix under (groupsFirst page)) = unseen seen (shown suffix under page) ↔
      ¬ OvertakesOn suffix under seen page := by
  induction page generalizing seen with
  | nil => exact iff_of_true rfl nofun
  | cons served rest ih =>
      rw [overtakesOn_cons, not_or, ← ih]
      -- a group stays where it is, and a key waits for the groups behind it
      cases hgroup : served.isGroup with
      | true =>
          have hfirst : groupsFirst (served :: rest) = served :: groupsFirst rest := by
            simp [groupsFirst, hgroup]
          rw [hfirst, shown_cons, shown_cons, unseen_append, unseen_append, List.append_right_inj]
          simp
      | false =>
          cases hshows : ofServed? suffix under served with
          | none => simp [groupsFirst, hgroup, shown_append, shown_cons, hshows]
          | some e =>
              rw [unseen_waiting_iff hgroup hshows]
              simp

/-! ## Page by page -/

/-- The names in the order in which a listing with pages of `size` names adds their entries. -/
def pageOrder (size : Nat) (names : List ServedName) : List ServedName :=
  if size = 0 ∨ names = [] then []
  else groupsFirst (names.take size) ++ pageOrder size (names.drop size)
termination_by names.length
decreasing_by
  rename_i hmore
  have hsome := List.length_pos_of_ne_nil fun hnil => hmore (Or.inr hnil)
  rw [List.length_drop]
  omega

theorem pageOrder_nil : pageOrder size [] = [] := by
  rw [pageOrder, if_pos (Or.inr rfl)]

/-- The first page followed by the pages of the names that it leaves over. -/
theorem pageOrder_eq (hsize : 1 ≤ size) (names : List ServedName) :
    pageOrder size names = groupsFirst (names.take size) ++ pageOrder size (names.drop size) := by
  by_cases hnil : names = []
  · rw [hnil, List.drop_nil, pageOrder_nil, List.take_nil]
    rfl
  · rw [pageOrder, if_neg (not_or.2 ⟨Nat.one_le_iff_ne_zero.1 hsize, hnil⟩)]

/-- On some page a group overtakes a key, where the entries of all pages before it are seen. -/
inductive Overtakes (suffix under : String) (size : Nat) :
    List DirectoryEntry → List ServedName → Prop
  | onPage {seen : List DirectoryEntry} {names : List ServedName}
      (h : OvertakesOn suffix under seen (names.take size)) : Overtakes suffix under size seen names
  | later {seen : List DirectoryEntry} {names : List ServedName}
      (h : Overtakes suffix under size (seen ++ shown suffix under (names.take size))
        (names.drop size)) : Overtakes suffix under size seen names

theorem overtakes_iff :
    Overtakes suffix under size seen names ↔ OvertakesOn suffix under seen (names.take size) ∨
      Overtakes suffix under size (seen ++ shown suffix under (names.take size))
        (names.drop size) := by
  constructor
  · intro h
    cases h with
    | onPage h => exact Or.inl h
    | later h => exact Or.inr h
  · exact Or.rec .onPage .later

/-- Without names no key is overtaken. -/
theorem not_overtakes_nil : ¬ Overtakes suffix under size seen [] := by
  generalize hnames : ([] : List ServedName) = names
  intro h
  induction h with
  | onPage h =>
      subst hnames
      rw [List.take_nil] at h
      cases h
  | later _ ih =>
      subst hnames
      exact ih List.drop_nil.symm

/-- On pages of one name no key is overtaken. -/
theorem not_overtakes_one : ¬ Overtakes suffix under 1 seen names := by
  intro h
  induction h with
  | @onPage seen names h =>
      cases names with
      | nil => cases h
      | cons served rest =>
          -- behind the one name there is no group to overtake it
          rw [List.take_succ_cons, List.take_zero, overtakesOn_cons] at h
          rcases h with ⟨-, _, _, -, -, hnext, -⟩ | h
          · cases hnext
          · cases h
  | later _ ih => exact ih

/-- The function `pageOrder` is a permutation of the names. -/
theorem pageOrder_perm (hsize : 1 ≤ size) (names : List ServedName) :
    (pageOrder size names).Perm names := by
  induction names using pageOrder.induct size with
  | case1 names hend =>
      obtain rfl := hend.resolve_left (Nat.one_le_iff_ne_zero.1 hsize)
      rw [pageOrder_nil]
  | case2 names hmore ih =>
      rw [pageOrder_eq hsize]
      exact ((groupsFirst_perm _).append ih).trans (.of_eq (List.take_append_drop size names))

/-- Page order gives the unseen entries in the order of the names exactly when no group overtakes a
key on any page. -/
theorem unseen_pageOrder_iff (hsize : 1 ≤ size) :
    unseen seen (shown suffix under (pageOrder size names)) =
        unseen seen (shown suffix under names) ↔
      ¬ Overtakes suffix under size seen names := by
  induction names using pageOrder.induct size generalizing seen with
  | case1 names hend =>
      obtain rfl := hend.resolve_left (Nat.one_le_iff_ne_zero.1 hsize)
      rw [pageOrder_nil]
      exact iff_of_true rfl not_overtakes_nil
  | case2 names hmore ih =>
      -- a page shows as many new entries in either order, so the pages are compared one by one
      have hmem : ∀ e, e ∈ shown suffix under (groupsFirst (names.take size)) ↔
          e ∈ shown suffix under (names.take size) := fun e =>
        ((groupsFirst_perm _).filterMap _).mem_iff
      have hnames : shown suffix under names =
          shown suffix under (names.take size) ++ shown suffix under (names.drop size) := by
        rw [← shown_append, List.take_append_drop]
      have hseen : unseen (seen ++ shown suffix under (groupsFirst (names.take size)))
          (shown suffix under (pageOrder size (names.drop size))) =
          unseen (seen ++ shown suffix under (names.take size))
            (shown suffix under (pageOrder size (names.drop size))) :=
        unseen_congr (by simp [hmem]) _
      rw [pageOrder_eq hsize, shown_append, hnames, unseen_append, unseen_append, hseen,
        overtakes_iff, not_or, ← ih, ← unseen_groupsFirst_iff]
      constructor
      · exact fun hsame => List.append_inj hsame (unseen_perm hmem).length_eq
      · rintro ⟨hpage, hlater⟩
        rw [hpage, hlater]

/-! ## Store order -/

/-- For any two entries in this order, some name shows the first one and comes before every name
that shows the second one. -/
def InStoreOrder (suffix under : String) (names : List ServedName)
    (entries : List DirectoryEntry) : Prop :=
  entries.Pairwise fun e e' => ∃ served ∈ names, ofServed? suffix under served = some e ∧
    ∀ served' ∈ names, ofServed? suffix under served' = some e' → served.name < served'.name

/-- A further name at the front does not affect entries that it does not show. -/
theorem InStoreOrder.cons {served : ServedName} {entries : List DirectoryEntry}
    (h : InStoreOrder suffix under names entries)
    (hother : ∀ e ∈ entries, ofServed? suffix under served ≠ some e) :
    InStoreOrder suffix under (served :: names) entries := by
  refine List.Pairwise.imp_of_mem (fun {e e'} _ he' => ?_) h
  rintro ⟨first, hmem, hshows, hbefore⟩
  refine ⟨first, List.mem_cons_of_mem _ hmem, hshows, fun served' hserved' hshows' => ?_⟩
  rcases List.mem_cons.1 hserved' with rfl | hserved'
  · exact absurd hshows' (hother e' he')
  · exact hbefore served' hserved' hshows'

/-- The unseen entries of strictly increasing names come in store order. -/
theorem inStoreOrder_unseen (hsorted : names.Pairwise fun a b => a.name < b.name) :
    InStoreOrder suffix under names (unseen seen (shown suffix under names)) := by
  induction names generalizing seen with
  | nil => exact .nil
  | cons served rest ih =>
      obtain ⟨hfirst, hrest⟩ := List.pairwise_cons.1 hsorted
      -- what is new behind the first name is not shown by it
      have hother : ∀ e ∈ unseen (seen ++ (ofServed? suffix under served).toList)
          (shown suffix under rest), ofServed? suffix under served ≠ some e := by
        intro e he hshows
        refine (mem_unseen.1 he).2 (List.mem_append_right _ ?_)
        rw [hshows]
        exact List.mem_singleton.2 rfl
      have hlater := (ih hrest).cons hother
      rw [shown_cons, unseen_append]
      cases hshows : ofServed? suffix under served with
      | none =>
          rw [hshows] at hlater
          exact hlater
      | some e =>
          rw [hshows] at hlater hother
          by_cases hseen : e ∈ seen
          · rw [Option.toList_some, unseen, if_pos hseen]
            exact hlater
          · rw [Option.toList_some, unseen, if_neg hseen]
            refine List.pairwise_cons.2 ⟨fun e' he' => ?_, hlater⟩
            refine ⟨served, List.mem_cons_self, hshows, fun served' hserved' hshows' => ?_⟩
            rcases List.mem_cons.1 hserved' with rfl | hserved'
            · exact absurd (hshows.symm.trans hshows') (hother e' he')
            · exact hfirst served' hserved'

/-- Entries have at most one store order. -/
theorem InStoreOrder.eq_of_perm {entries entries' : List DirectoryEntry}
    (h : InStoreOrder suffix under names entries) (h' : InStoreOrder suffix under names entries')
    (hperm : entries.Perm entries') : entries = entries' := by
  refine List.Perm.eq_of_pairwise (fun e e' _ _ hbefore hafter => ?_) h h' hperm
  obtain ⟨served, hmem, hshows, hfirst⟩ := hbefore
  obtain ⟨served', hmem', hshows', hfirst'⟩ := hafter
  -- each of the two names would come before the other
  exact absurd (hfirst served' hmem' hshows') (String.lt_asymm (hfirst' served hmem hshows))

/-- Page order does not change the set of unseen entries. -/
theorem unseen_pageOrder_perm (hsize : 1 ≤ size) :
    (unseen seen (shown suffix under (pageOrder size names))).Perm
      (unseen seen (shown suffix under names)) :=
  unseen_perm fun _ => ((pageOrder_perm hsize names).filterMap _).mem_iff

/-- The entries of a listing come in store order exactly when no group overtakes a key. -/
theorem inStoreOrder_pageOrder_iff (hsize : 1 ≤ size)
    (hsorted : names.Pairwise fun a b => a.name < b.name) :
    InStoreOrder suffix under names (unseen [] (shown suffix under (pageOrder size names))) ↔
      ¬ Overtakes suffix under size [] names := by
  rw [← unseen_pageOrder_iff hsize]
  constructor
  · exact fun h => h.eq_of_perm (inStoreOrder_unseen hsorted) (unseen_pageOrder_perm hsize)
  · intro hsame
    rw [hsame]
    exact inStoreOrder_unseen hsorted

end DirectoryEntry

end BucketTree
