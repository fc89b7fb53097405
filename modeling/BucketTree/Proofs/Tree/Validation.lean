import BucketTree.Proofs.Move.Rename
import BucketTree.Proofs.Tree.Faults
import BucketTree.Proofs.Tree.Making
import BucketTree.Tree.Access

/-!
# Paths are checked before any request

Every operation checks its paths first (`Tree.Demand.check`). If the check fails, the operation ends
with its fault and sends no request (`Operates.refused`). If the check succeeds, the operation may
still fail, but never with an `invalidPath` failure, whatever the store answers (`Operates.spares`).
So all operations reject the same paths, those that name no key or the key of a marker. In addition,
deletions, reads and writes refuse the root, and a rename refuses two ends between which nothing can
be moved (`Operates.refuses_iff`).
-/

set_option autoImplicit false

namespace BucketTree

/-! ## Failures that say nothing against a path -/

theorem Failure.isInvalidPath_ofRefusal (refusal : PathRefusal) :
    (ofRefusal refusal).IsInvalidPath := rfl

/-- The faults other than an `invalidPath` failure that an operation may end with: known failures of
other classes, and misuses. -/
inductive Fault.SparesPath : Fault → Prop
  | known {failure : Failure} (h : ¬ failure.IsInvalidPath) : SparesPath (.known failure)
  | misuse (misuse : Misuse) : SparesPath (.misuse misuse)

/-- The contract that permits every request and allows every answer. -/
def Contract.any : Contract := ⟨fun _ => True, fun _ _ => True⟩

theorem Backend.honors_any {σ : Type} (backend : Backend σ) : backend.Honors .any fun _ => True :=
  ⟨fun _ _ _ _ => trivial, fun _ _ _ _ _ _ => trivial⟩

/-- For any answers of the store, the action does not end with an `invalidPath` failure. -/
def Action.Spares {α : Type} (a : Action α) : Prop := a.Raises .any Fault.SparesPath

theorem Metadata.sparesPath_of_status {key : Key} {metadata : Option Metadata} {fault : Fault}
    (h : Metadata.status key metadata = .error fault) : fault.SparesPath := by
  unfold Metadata.status at h
  split at h
  · cases h
    exact .misuse _
  · split at h <;> cases h
    · exact .known nofun
    · exact .known nofun

/-- On any store, queries and changes do not refuse paths that were accepted before. -/
theorem allowsChanges_any : Contract.any.AllowsChanges Fault.SparesPath Fault.SparesPath where
  permits _ := trivial
  status _ _ _ _ h := Metadata.sparesPath_of_status h
  quiet _ _ h := .known h
  known_of_loud _ h := h
  loud_of_known _ h _ := h
  known _ h := .known h

/-! ## Paths -/

namespace Tree

/-- The failure of every operation on a closed tree. -/
def closedFailure (t : Tree) : Failure := ⟨.general "ERR_CLOSED", none, .closed t.bucket⟩

/-- The path is rejected: it names no key under the root address, or one of its segments is a
marker. -/
def Rejects (t : Tree) (path : Value) : Prop :=
  (∃ refusal, Address.toKey path t.settings.rootUri = .error (.known (.ofRefusal refusal))) ∨
    ∃ names, Address.segments path t.settings.rootUri = .ok names ∧
      ∃ name ∈ names, Key.isMarker t.suffix name = true

/-- The path names the key and is not rejected. -/
def Accepts (t : Tree) (path : Value) (key : Key) : Prop :=
  Address.toKey path t.settings.rootUri = .ok key ∧ ¬ t.Rejects path

variable {t : Tree} {path : Value} {key : Key}

theorem resolve_of_closed (h : t.isOpen = false) (path : Value) :
    t.resolve path = .error (.known t.closedFailure) := by
  unfold resolve
  rw [h]
  rfl

/-- The ends of resolving a path on an open tree. -/
inductive Resolves (t : Tree) (path : Value) : Except Fault Key → Prop
  /-- The root address is no text, so the path is neither rejected nor accepted. -/
  | misused {misuse : Misuse} (hnot : ¬ t.Rejects path) (hnone : ∀ key, ¬ t.Accepts path key) :
      Resolves t path (.error (.misuse misuse))
  | rejected {refusal : PathRefusal} (hrejects : t.Rejects path) :
      Resolves t path (.error (.known (.ofRefusal refusal)))
  | accepted {key : Key} (haccepts : t.Accepts path key) : Resolves t path (.ok key)

theorem resolves_resolve (hopen : t.isOpen = true) (path : Value) :
    t.Resolves path (t.resolve path) := by
  unfold resolve
  rw [hopen]
  obtain ⟨misuse, hsegments⟩ | ⟨refusal, hsegments⟩ | ⟨-, -, names, -, -, hsegments⟩ :=
    segments_cases path t.settings.rootUri
  · rw [hsegments]
    refine .misused ?_ ?_
    · rintro (⟨refusal, hrefusal⟩ | ⟨names, hnames, -⟩)
      · rw [Address.toKey, hsegments] at hrefusal
        cases hrefusal
      · cases hsegments.symm.trans hnames
    · rintro key ⟨hkey, -⟩
      rw [Address.toKey, hsegments] at hkey
      cases hkey
  · rw [hsegments]
    refine .rejected (Or.inl ⟨refusal, ?_⟩)
    rw [Address.toKey, hsegments]
    rfl
  · have hkey : Address.toKey path t.settings.rootUri =
        .ok (Key.separatorText.intercalate names) := by
      rw [Address.toKey, hsegments]
      rfl
    rw [hsegments]
    dsimp only [Bool.not_true]
    cases hfind : names.find? (Key.isMarker t.suffix) with
    | some name =>
        exact .rejected (Or.inr ⟨names, hsegments, name, List.mem_of_find?_eq_some hfind,
          List.find?_some hfind⟩)
    | none =>
        refine .accepted ⟨hkey, ?_⟩
        rintro (⟨refusal, hrefusal⟩ | ⟨_, hnames, name, hname, hmarker⟩)
        · cases hkey.symm.trans hrefusal
        · cases hsegments.symm.trans hnames
          exact List.find?_eq_none.1 hfind name hname hmarker

theorem Accepts.unique {key' : Key} (h : t.Accepts path key) (h' : t.Accepts path key') :
    key = key' :=
  Except.ok.inj (h.1.symm.trans h'.1)

/-! ## Operations -/

/-- A rename from `source` to `destination` is refused: one of them is the root, they are equal, or
the destination lies below the source. -/
def Unmovable (source destination : Key) : Prop :=
  source = Key.root ∨ destination = Key.root ∨ source = destination ∨
    Key.isAncestor source destination = true

/-- The requirement of an operation on its paths. -/
inductive Demand where
  /-- The path is accepted. -/
  | anyPath (path : Value)
  /-- The path is accepted and does not name the root; `fault` is the refusal of the root. -/
  | notRoot (path : Value) (fault : PathFault)
  /-- The two paths are accepted and are valid ends of a rename. -/
  | ends (source destination : Value)

namespace Demand

/-- The check of a requirement, as the operation makes it. -/
def check (t : Tree) : Demand → Except Fault Unit
  | .anyPath path => do
      let _ ← t.resolve path
      return ()
  | .notRoot path fault => do
      let key ← t.resolve path
      if key == Key.root then throw (.known (.ofRefusal ⟨fault, path⟩))
  | .ends source destination => do
      let sourceKey ← t.resolve source
      let destinationKey ← t.resolve destination
      (checkEnds source destination sourceKey destinationKey).mapError fun refusal =>
        .known (.ofRefusal refusal)

/-- The paths do not meet the requirement: a path is rejected, a path names the root where that is
excluded, or the two paths are no valid ends of a rename. The source of a rename is checked before
the destination. -/
def Refused (t : Tree) : Demand → Prop
  | .anyPath path => t.Rejects path
  | .notRoot path _ => t.Rejects path ∨ t.Accepts path Key.root
  | .ends source destination => t.Rejects source ∨ ∃ sourceKey, t.Accepts source sourceKey ∧
      (t.Rejects destination ∨ ∃ destinationKey, t.Accepts destination destinationKey ∧
        Unmovable sourceKey destinationKey)

theorem check_of_closed (h : t.isOpen = false) (demand : Demand) :
    demand.check t = .error (.known t.closedFailure) := by
  cases demand <;> simp only [check, resolve_of_closed h] <;> rfl

/-- The ends of checking a requirement on an open tree. -/
inductive Checks (t : Tree) (demand : Demand) : Except Fault Unit → Prop
  | misused {misuse : Misuse} (hnot : ¬ demand.Refused t) :
      Checks t demand (.error (.misuse misuse))
  | refused {refusal : PathRefusal} (hrefused : demand.Refused t) :
      Checks t demand (.error (.known (.ofRefusal refusal)))
  | met (hnot : ¬ demand.Refused t) : Checks t demand (.ok ())

/-- The program `checkEnds` refuses two accepted paths exactly when their keys are `Unmovable`. -/
theorem checks_checkEnds {source destination : Value} {sourceKey destinationKey : Key}
    (hsource : t.Accepts source sourceKey) (hdestination : t.Accepts destination destinationKey) :
    Checks t (.ends source destination)
      ((checkEnds source destination sourceKey destinationKey).mapError fun refusal =>
        .known (.ofRefusal refusal)) := by
  have hrefused (h : Unmovable sourceKey destinationKey) :
      (ends source destination).Refused t :=
    Or.inr ⟨sourceKey, hsource, Or.inr ⟨destinationKey, hdestination, h⟩⟩
  have hmet (h : ¬ Unmovable sourceKey destinationKey) :
      ¬ (ends source destination).Refused t := by
    rintro (hrejects | ⟨key, haccepts, hrejects | ⟨key', haccepts', hbad⟩⟩)
    · exact hsource.2 hrejects
    · exact hdestination.2 hrejects
    · obtain rfl := hsource.unique haccepts
      obtain rfl := hdestination.unique haccepts'
      exact h hbad
  unfold checkEnds
  split
  next hroots =>
    rw [Bool.or_eq_true, beq_iff_eq, beq_iff_eq] at hroots
    exact .refused (hrefused (hroots.imp_right Or.inl))
  next hroots =>
    split
    next hsame => exact .refused (hrefused (Or.inr (Or.inr (Or.inl (beq_iff_eq.1 hsame)))))
    next hsame =>
      split
      next hbelow => exact .refused (hrefused (Or.inr (Or.inr (Or.inr hbelow))))
      next hbelow =>
        rw [Bool.or_eq_true, beq_iff_eq, beq_iff_eq, not_or] at hroots
        rw [beq_iff_eq] at hsame
        exact .met (hmet (not_or.2 ⟨hroots.1, not_or.2 ⟨hroots.2, not_or.2 ⟨hsame, hbelow⟩⟩⟩))

theorem checks_check (hopen : t.isOpen = true) (demand : Demand) :
    demand.Checks t (demand.check t) := by
  cases demand with
  | anyPath path =>
      have hpath := resolves_resolve hopen path
      rw [check]
      generalize t.resolve path = resolved at hpath ⊢
      cases hpath with
      | misused hnot hnone => exact .misused hnot
      | rejected hrejects => exact .refused hrejects
      | accepted haccepts => exact .met haccepts.2
  | notRoot path fault =>
      have hpath := resolves_resolve hopen path
      rw [check]
      generalize t.resolve path = resolved at hpath ⊢
      cases hpath with
      | misused hnot hnone => exact .misused (not_or.2 ⟨hnot, hnone Key.root⟩)
      | rejected hrejects => exact .refused (Or.inl hrejects)
      | @accepted key haccepts =>
          by_cases hroot : key = Key.root
          · subst hroot
            exact .refused (Or.inr haccepts)
          · show Checks t _ (if key == Key.root then _ else _)
            rw [if_neg fun h => hroot (beq_iff_eq.1 h)]
            exact .met (not_or.2 ⟨haccepts.2, fun h => hroot (haccepts.unique h)⟩)
  | ends source destination =>
      have hsource := resolves_resolve hopen source
      have hdestination := resolves_resolve hopen destination
      rw [check]
      generalize t.resolve source = resolved at hsource ⊢
      generalize t.resolve destination = resolved' at hdestination ⊢
      cases hsource with
      | misused hnot hnone =>
          refine .misused ?_
          rintro (hrejects | ⟨key, haccepts, -⟩)
          · exact hnot hrejects
          · exact hnone key haccepts
      | rejected hrejects => exact .refused (Or.inl hrejects)
      | accepted haccepts =>
          cases hdestination with
          | misused hnot hnone =>
              refine .misused ?_
              rintro (hrejects | ⟨-, -, hrejects | ⟨key, haccepts', -⟩⟩)
              · exact haccepts.2 hrejects
              · exact hnot hrejects
              · exact hnone key haccepts'
          | rejected hrejects => exact .refused (Or.inr ⟨_, haccepts, Or.inl hrejects⟩)
          | accepted haccepts' => exact checks_checkEnds haccepts haccepts'

end Demand

/-- The operations of a tree on paths, each with its requirement. -/
inductive Operates (t : Tree) : {α : Type} → Demand → Action α → Prop
  | isFile (path : Value) : Operates t (.anyPath path) (t.isFile path)
  | isDirectory (path : Value) : Operates t (.anyPath path) (t.isDirectory path)
  | exists? (path : Value) : Operates t (.anyPath path) (t.exists? path)
  | status (path : Value) : Operates t (.anyPath path) (t.status path)
  | list (path : Value) (isRecursive : Bool) (cancel : Option Token) :
      Operates t (.anyPath path) (t.list path isRecursive cancel)
  | delete (path : Value) (isRecursive : Bool) (cancel : Option Token) :
      Operates t (.notRoot path .rootDelete) (t.delete path isRecursive cancel)
  | rename (source destination : Value) (cancel : Option Token) (overwrite : Bool) :
      Operates t (.ends source destination) (t.rename source destination cancel overwrite)
  | mkdirs (path : Value) (createParents : Bool) :
      Operates t (.anyPath path) (t.mkdirs path createParents)
  | create (path : Value) (createParents : Bool) :
      Operates t (.notRoot path .rootWrite) (t.create path createParents)
  | openForWrite (path : Value) (data : Bytes) :
      Operates t (.notRoot path .rootWrite) (t.openForWrite path data)
  | openForRead (path : Value) {offset : Value} (hoffset : offset.isBelow 0 = .ok false) :
      Operates t (.notRoot path .rootRead) (t.openForRead path offset)

/-! ## Refusals -/

namespace Demand

theorem check_anyPath_eq_error {fault : Fault} (h : (anyPath path).check t = .error fault) :
    t.resolve path = .error fault := by
  rw [check] at h
  cases hpath : t.resolve path with
  | ok key => rw [hpath] at h; cases h
  | error first => rw [hpath] at h; cases h; rfl

theorem check_notRoot_eq_error {fault : Fault} {refused : PathFault}
    (h : (notRoot path refused).check t = .error fault) :
    t.resolve path = .error fault ∨
      t.resolve path = .ok Key.root ∧ fault = .known (.ofRefusal ⟨refused, path⟩) := by
  rw [check] at h
  cases hpath : t.resolve path with
  | error first => rw [hpath] at h; cases h; exact Or.inl rfl
  | ok key =>
      rw [hpath] at h
      by_cases hroot : key = Key.root
      · subst hroot
        cases h
        exact Or.inr ⟨rfl, rfl⟩
      · have hmet : (if key == Key.root then throw (.known (.ofRefusal ⟨refused, path⟩))
            else pure ()) = (.ok () : Except Fault Unit) :=
          if_neg fun heq => hroot (beq_iff_eq.1 heq)
        cases hmet.symm.trans h

end Demand

/-- An operation whose paths do not meet its requirement ends with the fault of the check and sends
no request. -/
theorem Operates.refused {demand : Demand} {α : Type} {a : Action α} (h : t.Operates demand a)
    {fault : Fault} (hcheck : demand.check t = .error fault) : a.run = .done (.error fault) := by
  cases h with
  | isFile path =>
      rw [Tree.isFile, key_bind_of_refused (Demand.check_anyPath_eq_error hcheck)]
      rfl
  | isDirectory path =>
      rw [Tree.isDirectory, key_bind_of_refused (Demand.check_anyPath_eq_error hcheck)]
      rfl
  | exists? path =>
      rw [Tree.exists?, Tree.isFile, key_bind_of_refused (Demand.check_anyPath_eq_error hcheck)]
      rfl
  | status path =>
      rw [Tree.status, key_bind_of_refused (Demand.check_anyPath_eq_error hcheck)]
      rfl
  | list path isRecursive cancel =>
      rw [Tree.list, key_bind_of_refused (Demand.check_anyPath_eq_error hcheck)]
      rfl
  | mkdirs path createParents =>
      rw [Tree.mkdirs, makeDirectory, key_bind_of_refused (Demand.check_anyPath_eq_error hcheck)]
      rfl
  | delete path isRecursive cancel =>
      obtain hpath | ⟨hpath, rfl⟩ := Demand.check_notRoot_eq_error hcheck
      · rw [Tree.delete, key_bind_of_refused hpath]
        rfl
      · rw [Tree.delete, key_bind_of_resolved hpath]
        rfl
  | create path createParents =>
      obtain hpath | ⟨hpath, rfl⟩ := Demand.check_notRoot_eq_error hcheck
      · rw [Tree.create, key_bind_of_refused hpath]
        rfl
      · -- the root has no parents to be made
        have hwrite : t.openForWrite path [] = throw (.known (.ofRefusal ⟨.rootWrite, path⟩)) := by
          rw [Tree.openForWrite, key_bind_of_resolved hpath]
          rfl
        rw [Tree.create, key_bind_of_resolved hpath, hwrite]
        cases createParents <;> rfl
  | openForWrite path data =>
      obtain hpath | ⟨hpath, rfl⟩ := Demand.check_notRoot_eq_error hcheck
      · rw [Tree.openForWrite, key_bind_of_refused hpath]
        rfl
      · rw [Tree.openForWrite, key_bind_of_resolved hpath]
        rfl
  | openForRead path hoffset =>
      obtain hpath | ⟨hpath, rfl⟩ := Demand.check_notRoot_eq_error hcheck
      · rw [Tree.openForRead, hoffset, key_bind_of_refused hpath]
        rfl
      · rw [Tree.openForRead, hoffset, key_bind_of_resolved hpath]
        rfl
  | rename source destination cancel overwrite =>
      rw [Demand.check] at hcheck
      cases hsource : t.resolve source with
      | error first =>
          rw [hsource] at hcheck
          cases hcheck
          rw [Tree.rename, key_bind_of_refused hsource]
          rfl
      | ok sourceKey =>
          rw [Tree.rename, key_bind_of_resolved hsource]
          cases hdestination : t.resolve destination with
          | error first =>
              rw [hsource, hdestination] at hcheck
              cases hcheck
              rw [key_bind_of_refused hdestination]
              rfl
          | ok destinationKey =>
              rw [key_bind_of_resolved hdestination]
              rw [hsource, hdestination] at hcheck
              cases hends : checkEnds source destination sourceKey destinationKey with
              | error refusal =>
                  have heq := (congrArg (Except.mapError _) hends).symm.trans hcheck
                  cases heq
                  rfl
              | ok _ =>
                  have heq := (congrArg (Except.mapError _) hends).symm.trans hcheck
                  cases heq

/-! ## Operations on paths that are accepted -/

theorem allowsPath_of_resolved (h : t.resolve path = .ok key) (allows : Fault → Prop) :
    t.AllowsPath allows path := by
  intro fault hfault
  cases h.symm.trans hfault

theorem allowsOther_of_resolved (h : t.resolve path = .ok key) (hroot : key ≠ Key.root)
    (allows : Fault → Prop) : t.AllowsOther allows path := by
  refine ⟨allowsPath_of_resolved h allows, fun other hother => ?_⟩
  cases h.symm.trans hother
  exact Or.inl hroot

theorem allowsEnds_of_resolved {source destination : Value} {sourceKey destinationKey : Key}
    (hsource : t.resolve source = .ok sourceKey)
    (hdestination : t.resolve destination = .ok destinationKey)
    (hends : checkEnds source destination sourceKey destinationKey = .ok ())
    (allows : Fault → Prop) : t.AllowsEnds allows source destination := by
  obtain ⟨hsourceRoot, hdestinationRoot, -, -⟩ := checkEnds_eq_ok hends
  refine ⟨allowsPath_of_resolved hsource allows, allowsPath_of_resolved hdestination allows, ?_, ?_⟩
  · intro _ _ hfirst hsecond refusal hrefusal
    cases hsource.symm.trans hfirst
    cases hdestination.symm.trans hsecond
    cases hends.symm.trans hrefusal
  · rintro key (hfirst | hsecond)
    · cases hsource.symm.trans hfirst
      exact Or.inl hsourceRoot
    · cases hdestination.symm.trans hsecond
      exact Or.inl hdestinationRoot

/-- The path of a plain key resolves to some key. -/
theorem exists_resolve_toPath {root : String} (hopen : t.isOpen = true)
    (hroot : t.settings.rootUri = .text root) (h : Key.IsPlain t.suffix key) :
    ∃ named, t.resolve (Key.toPath key) = .ok named := by
  have hnames : Key.names (Path.canonical (Key.parts key)) = Key.parts key := by
    unfold Path.canonical
    rw [Key.names_separator_append, Key.names_intercalate (names_of_isPlain h)]
  have hmarkers : (Key.names (Path.withoutRoot (Path.canonical (Key.parts key)) root)).find?
      (Key.isMarker t.suffix) = none := by
    apply List.find?_eq_none.2
    intro name hname
    have hpart := hnames ▸ Path.mem_names_of_withoutRoot hname
    rw [(h name hpart).not_marker]
    exact Bool.false_ne_true
  refine ⟨Key.separatorText.intercalate
    (Key.names (Path.withoutRoot (Path.canonical (Key.parts key)) root)), ?_⟩
  unfold resolve
  rw [hopen, hroot, Address.segments_text, toPath_of_isPlain h, segments_of_isPlain h]
  simp only [Bool.not_true, Bool.false_eq_true, if_false, Except.mapError, hmarkers]

/-- The parent of the key of a path is the root, or the path of the parent resolves too. -/
theorem exists_parent_of_resolve (h : t.resolve path = .ok key) (hroot : key ≠ Key.root) :
    ∃ parent, Key.parent? key = some parent ∧
      (parent = Key.root ∨ ∃ named, t.resolve (Key.toPath parent) = .ok named) := by
  obtain ⟨-, root, -, -, haddress, -⟩ := resolve_eq_ok h
  obtain ⟨parent, hparent, -, habove⟩ := ((isPath_of_resolve h).isPlain hroot).exists_parent
  exact ⟨parent, hparent, habove.imp_right fun hplain =>
    exists_resolve_toPath (isOpen_of_resolve h) haddress hplain.1⟩

/-- The paths of missing parents are never refused. -/
theorem allowsWay_of_resolved (allows : Fault → Prop) :
    t.AllowsWay allows fun path => ∃ key, t.resolve path = .ok key := by
  refine ⟨fun path ⟨key, h⟩ => allowsPath_of_resolved h allows, ?_⟩
  intro path key parent _ h hroot hparent hup
  obtain ⟨above, habove, hnamed⟩ := exists_parent_of_resolve h hroot
  cases hparent.symm.trans habove
  exact hnamed.resolve_left hup

theorem spares_create (h : t.resolve path = .ok key) (hroot : key ≠ Key.root)
    (createParents : Bool) : (t.create path createParents).Spares := by
  have hwrite : (t.openForWrite path []).Spares :=
    (allowsOther_of_resolved h hroot _).raises_openForWrite []
  obtain ⟨parent, hparent, habove⟩ := exists_parent_of_resolve h hroot
  rw [create, key_bind_of_resolved h, hparent]
  dsimp only
  split
  · split
    next hup =>
      have hnamed := habove.resolve_left (bne_iff_ne.1 hup)
      exact (allowsChanges_any.raises_makeDirectory (allowsWay_of_resolved _) hnamed
        t.nestingLimit true fun _ => .misuse _).discard.bind fun _ => hwrite
    · exact hwrite
  · exact hwrite

namespace Demand

theorem check_anyPath_eq_ok (h : (anyPath path).check t = .ok ()) :
    ∃ key, t.resolve path = .ok key := by
  rw [check] at h
  cases hpath : t.resolve path with
  | error fault => rw [hpath] at h; cases h
  | ok key => exact ⟨key, rfl⟩

theorem check_notRoot_eq_ok {refused : PathFault} (h : (notRoot path refused).check t = .ok ()) :
    ∃ key, t.resolve path = .ok key ∧ key ≠ Key.root := by
  rw [check] at h
  cases hpath : t.resolve path with
  | error fault => rw [hpath] at h; cases h
  | ok key =>
      refine ⟨key, rfl, ?_⟩
      rintro rfl
      rw [hpath] at h
      cases h

theorem check_ends_eq_ok {source destination : Value}
    (h : (ends source destination).check t = .ok ()) :
    ∃ sourceKey destinationKey, t.resolve source = .ok sourceKey ∧
      t.resolve destination = .ok destinationKey ∧
      checkEnds source destination sourceKey destinationKey = .ok () := by
  rw [check] at h
  cases hsource : t.resolve source with
  | error fault => rw [hsource] at h; cases h
  | ok sourceKey =>
      cases hdestination : t.resolve destination with
      | error fault => rw [hsource, hdestination] at h; cases h
      | ok destinationKey =>
          rw [hsource, hdestination] at h
          cases hends : checkEnds source destination sourceKey destinationKey with
          | error refusal => cases (congrArg (Except.mapError _) hends).symm.trans h
          | ok _ => exact ⟨_, _, rfl, rfl, hends⟩

end Demand

/-- An operation whose paths meet its requirement never ends with an `invalidPath` failure. -/
theorem Operates.spares {demand : Demand} {α : Type} {a : Action α} (h : t.Operates demand a)
    (hcheck : demand.check t = .ok ()) : a.Spares := by
  cases h with
  | isFile path =>
      obtain ⟨key, hpath⟩ := Demand.check_anyPath_eq_ok hcheck
      exact allowsChanges_any.raises_isFile (allowsPath_of_resolved hpath _)
  | isDirectory path =>
      obtain ⟨key, hpath⟩ := Demand.check_anyPath_eq_ok hcheck
      exact allowsChanges_any.raises_isDirectory (allowsPath_of_resolved hpath _)
  | exists? path =>
      obtain ⟨key, hpath⟩ := Demand.check_anyPath_eq_ok hcheck
      exact allowsChanges_any.raises_existsAt (allowsPath_of_resolved hpath _)
  | status path =>
      obtain ⟨key, hpath⟩ := Demand.check_anyPath_eq_ok hcheck
      exact allowsChanges_any.raises_status (allowsPath_of_resolved hpath _)
  | list path isRecursive cancel =>
      obtain ⟨key, hpath⟩ := Demand.check_anyPath_eq_ok hcheck
      exact allowsChanges_any.raises_list (allowsPath_of_resolved hpath _) isRecursive cancel
  | mkdirs path createParents =>
      have hpath := Demand.check_anyPath_eq_ok hcheck
      exact allowsChanges_any.raises_makeDirectory (allowsWay_of_resolved _) hpath t.nestingLimit
        createParents fun _ => .misuse _
  | delete path isRecursive cancel =>
      obtain ⟨key, hpath, hroot⟩ := Demand.check_notRoot_eq_ok hcheck
      exact allowsChanges_any.raises_delete (allowsOther_of_resolved hpath hroot _) isRecursive
        cancel
  | create path createParents =>
      obtain ⟨key, hpath, hroot⟩ := Demand.check_notRoot_eq_ok hcheck
      exact spares_create hpath hroot createParents
  | openForWrite path data =>
      obtain ⟨key, hpath, hroot⟩ := Demand.check_notRoot_eq_ok hcheck
      exact (allowsOther_of_resolved hpath hroot _).raises_openForWrite data
  | openForRead path hoffset =>
      obtain ⟨key, hpath, hroot⟩ := Demand.check_notRoot_eq_ok hcheck
      exact allowsChanges_any.raises_openForRead (allowsOther_of_resolved hpath hroot _) hoffset
  | rename source destination cancel overwrite =>
      obtain ⟨sourceKey, destinationKey, hsource, hdestination, hends⟩ :=
        Demand.check_ends_eq_ok hcheck
      exact allowsChanges_any.raises_rename
        (allowsEnds_of_resolved hsource hdestination hends _) cancel overwrite

/-- An action that spares paths has no run that ends with an `invalidPath` failure. -/
theorem not_isInvalidPath_of_spares {α σ : Type} {a : Action α} (h : a.Spares)
    (backend : Backend σ) (s : σ) {failure : Failure}
    (hend : (a.perform backend s).1 = some (.error (.known failure))) :
    ¬ failure.IsInvalidPath := by
  have hrun := (Program.Keeps.run backend.honors_any h (s := s) trivial).2 _ hend _ rfl
  cases hrun with
  | known hnot => exact hnot

/-- Paths are checked before any request. On a closed tree, every operation ends with `ERR_CLOSED`.
On an open tree, an operation ends with an `invalidPath` failure exactly when its paths do not meet
its requirement, and the rejected paths are the same for all operations. In both cases it sends no
request and returns no result. -/
theorem Operates.refuses_iff {demand : Demand} {α : Type} {a : Action α}
    (h : t.Operates demand a) :
    (t.isOpen = false → a.run = .done (.error (.known t.closedFailure))) ∧
    (t.isOpen = true →
      (demand.Refused t →
        ∃ failure, failure.IsInvalidPath ∧ a.run = .done (.error (.known failure))) ∧
      ∀ {σ : Type} (backend : Backend σ) (s : σ) (failure : Failure),
        (a.perform backend s).1 = some (.error (.known failure)) → failure.IsInvalidPath →
        demand.Refused t) := by
  refine ⟨fun hclosed => h.refused (demand.check_of_closed hclosed), fun hopen => ?_⟩
  have hchecks := demand.checks_check hopen
  generalize hcheck : demand.check t = checked at hchecks
  cases hchecks with
  | misused hnot =>
      refine ⟨fun hrefused => absurd hrefused hnot, fun backend s failure hend _ => ?_⟩
      rw [Action.perform, h.refused hcheck] at hend
      cases hend
  | refused hrefused =>
      exact ⟨fun _ => ⟨_, Failure.isInvalidPath_ofRefusal _, h.refused hcheck⟩,
        fun _ _ _ _ _ => hrefused⟩
  | met hnot =>
      refine ⟨fun hrefused => absurd hrefused hnot, fun backend s failure hend hinvalid => ?_⟩
      exact absurd hinvalid (not_isInvalidPath_of_spares (h.spares hcheck) backend s hend)

/-- A file below a marker is not created, and its missing parents are not made. -/
theorem refuses_iff_marker :
    (∃ failure, failure.IsInvalidPath ∧
      (keyByKey.create "/s_$folder$/x" true).run = .done (.error (.known failure))) ∧
    (keyByKey.close.create "/s_$folder$/x" true).run =
      .done (.error (.known ⟨.general "ERR_CLOSED", none, .closed "b"⟩)) := by
  have hopen : keyByKey.isOpen = true := rfl
  have hclosed : keyByKey.close.isOpen = false := rfl
  have hsegments : Address.segments "/s_$folder$/x" keyByKey.settings.rootUri =
      .ok ["s_$folder$", "x"] := rfl
  have hrejects : keyByKey.Rejects "/s_$folder$/x" :=
    Or.inr ⟨_, hsegments, "s_$folder$", List.mem_cons_self, rfl⟩
  obtain ⟨-, hrefuses⟩ :=
    Operates.refuses_iff (Operates.create (t := keyByKey) "/s_$folder$/x" true)
  obtain ⟨hends, -⟩ :=
    Operates.refuses_iff (Operates.create (t := keyByKey.close) "/s_$folder$/x" true)
  exact ⟨(hrefuses hopen).1 (Or.inl hrejects), hends hclosed⟩

end Tree

end BucketTree
