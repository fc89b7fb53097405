import BucketTree.Proofs.Contract.Mount
import BucketTree.Proofs.Contract.World
import BucketTree.Session.Run

/-!
# Sessions under a contract

A session that accesses its bucket through the tree and the mount preserves what a contract
protects, as long as each of its deletions and renames is permitted (`Session.Upholds.runSteps`).
The rules of interference that it adds must respect the contract. Writers may be closed at any later
time, and any request may fail.
-/

set_option autoImplicit false

namespace BucketTree

/-- The tree has the bucket and the marker suffix of `t₀`, and its paths resolve as in `t₀`. It may
be closed. -/
structure Tree.IsLike (t t₀ : Tree) : Prop where
  bucket_eq : t.bucket = t₀.bucket
  suffix_eq : t.suffix = t₀.suffix
  resolves : ∀ path key, t.resolve path = .ok key → t₀.resolve path = .ok key

namespace Tree.IsLike

variable {c : Contract} {t t₀ : Tree}

theorem refl (t : Tree) : t.IsLike t := ⟨rfl, rfl, fun _ _ h => h⟩

/-- No path resolves in a closed tree. -/
theorem close (h : t.IsLike t₀) : t.close.IsLike t₀ where
  bucket_eq := h.bucket_eq
  suffix_eq := h.suffix_eq
  resolves := by
    intro path key hkey
    cases hkey

theorem permitsFiles (h : t.IsLike t₀) (hfiles : c.PermitsFiles t₀.suffix) :
    c.PermitsFiles t.suffix := by
  rwa [h.suffix_eq]

theorem permitsDelete (h : t.IsLike t₀) {path : Value} (hdelete : c.PermitsDelete t₀ path) :
    c.PermitsDelete t path := by
  intro key hkey hroot
  rw [h.suffix_eq]
  exact hdelete key (h.resolves path key hkey) hroot

theorem permitsRenaming (h : t.IsLike t₀) {source destination : Value}
    (hrenaming : c.PermitsRenaming t₀ source destination) :
    c.PermitsRenaming t source destination := by
  intro sourceKey destinationKey hsource hdestination hsourceRoot hdestinationRoot
  rw [h.suffix_eq]
  exact hrenaming sourceKey destinationKey (h.resolves _ _ hsource) (h.resolves _ _ hdestination)
    hsourceRoot hdestinationRoot

end Tree.IsLike

/-! ## Steps that are permitted -/

section Permitted

variable (c : Contract) (inv : Contents → Prop) (t : Tree)

/-- The step sends no request of its own, and a rule that it adds respects the contract. -/
def StoreStep.IsPermitted : StoreStep → Prop
  | .request _ => False
  | .hook rule => rule.Respects c inv
  | _ => True

/-- A deletion or rename of the step is permitted. -/
def TreeStep.IsPermitted : TreeStep → Prop
  | .delete path _ _ => c.PermitsDelete t path
  | .rename source destination _ _ => c.PermitsRenaming t source destination
  | _ => True

/-- The uploads of a writer that the step makes for a given key are permitted. -/
def WriterStep.IsPermitted : WriterStep → Prop
  | .make key _ _ => c.PermitsUploads key
  | _ => True

/-- A deletion or rename of the step is permitted. -/
def MountStep.IsPermitted : MountStep → Prop
  | .removeDirectory path => c.PermitsDelete t path
  | .unlink path => c.PermitsDelete t path
  | .rename source destination => c.PermitsRenaming t source destination
  | _ => True

/-- The step accesses the bucket only through the tree, the mount and the items that they have
opened, and its deletions and renames are permitted. -/
def Step.IsPermitted : Step → Prop
  | .store _ step => step.IsPermitted c inv
  | .tree step => step.IsPermitted c t
  | .writer _ step => step.IsPermitted c
  | .mount step => step.IsPermitted c t
  | .directory _ => False
  | .move _ => False
  | _ => True

end Permitted

namespace OpenItem

variable {c : Contract}

/-- The uploads of a writer are permitted. -/
def MayUpload (c : Contract) : OpenItem → Prop
  | .writer w => c.PermitsUploads w.key
  | _ => True

theorem mayUpload_reclaim {item : OpenItem} (h : item.MayUpload c)
    (isHeld : BlockNumber → Bool) : (item.reclaim isHeld).MayUpload c := by
  cases item with
  | writer w =>
      show c.PermitsUploads (w.reclaim isHeld).key
      rwa [Writer.key_reclaim]
  | _ => trivial

end OpenItem

namespace Session

/-- The invariant of a session over the tree `t`: its tree is like `t`, its bucket satisfies `inv`
and its rules respect it, and the uploads of all open writers are permitted. -/
structure Upholds (c : Contract) (inv : Contents → Prop) (t : Tree) (s : Session) : Prop where
  tree : s.tree.IsLike t
  world : s.world.Upholds c inv t.bucket
  mount : s.mount.MayUpload c
  items : ∀ e ∈ s.items, e.2.MayUpload c

variable {α : Type} {c : Contract} {inv : Contents → Prop} {t₀ : Tree} {name : String} {s : Session}

/-! ## Items -/

theorem Upholds.of_item? (h : s.Upholds c inv t₀) {item : OpenItem}
    (hitem : s.item? name = some item) : item.MayUpload c := by
  obtain ⟨e, he, rfl⟩ := Option.map_eq_some_iff.1 hitem
  exact h.items e (List.mem_of_find?_eq_some he)

theorem Upholds.dropItem (h : s.Upholds c inv t₀) (name : String) :
    (s.dropItem name).Upholds c inv t₀ :=
  { h with items := fun e he => h.items e (List.mem_filter.1 he).1 }

theorem Upholds.setItem (h : s.Upholds c inv t₀) (name : String) {item : OpenItem}
    (hitem : item.MayUpload c) : (s.setItem name item).Upholds c inv t₀ :=
  { h with items := List.forall_mem_cons.2 ⟨hitem, (h.dropItem name).items⟩ }

theorem Upholds.reclaim (h : s.Upholds c inv t₀) : s.reclaim.Upholds c inv t₀ where
  tree := h.tree
  world := h.world
  mount := h.mount.mapWriters fun w => w.key_reclaim _
  items := by
    intro e he
    obtain ⟨old, hold, rfl⟩ := List.mem_map.1 he
    exact OpenItem.mayUpload_reclaim (h.items old hold) _

/-! ## Parts of a step -/

variable (hc : c.Protects inv)

include hc in
/-- Running a program that keeps the contract preserves the invariant, and its result satisfies
`returns`. -/
theorem Upholds.perform (h : s.Upholds c inv t₀) {p : Program α} {returns : α → Prop}
    (hp : p.Keeps c returns) : (perform t₀.bucket p s).2.Upholds c inv t₀ ∧
      ∀ a, (Session.perform t₀.bucket p s).1 = .ok a → returns a := by
  obtain ⟨hworld, hreturns⟩ := hp.run (World.backend_honors hc t₀.bucket) h.world
  unfold Session.perform
  split
  next a world heq =>
    rw [heq] at hworld hreturns
    refine ⟨{ h with world := hworld }, ?_⟩
    rintro _ ⟨⟩
    exact hreturns a rfl
  next heq =>
    rw [heq] at hworld
    exact ⟨{ h with world := hworld }, nofun⟩

include hc in
theorem Upholds.act (h : s.Upholds c inv t₀) {a : Action α} {returns : α → Prop}
    (ha : a.Keeps c returns) : (act a s).2.Upholds c inv t₀ ∧
      ∀ x, (Session.act a s).1 = .ok x → returns x := by
  obtain ⟨hleft, hreturns⟩ := h.perform hc ha
  unfold Session.act
  rw [h.tree.bucket_eq]
  split
  next heq =>
    rw [heq] at hleft hreturns
    exact ⟨hleft, fun x hx => by cases hx; exact hreturns _ rfl _ rfl⟩
  next heq =>
    rw [heq] at hleft
    exact ⟨hleft, nofun⟩
  next heq =>
    rw [heq] at hleft
    exact ⟨hleft, nofun⟩

include hc in
theorem Upholds.reply (h : s.Upholds c inv t₀) {a : Action α} {returns : α → Prop}
    (ha : a.Keeps c returns) (f : α → Reply) : (reply a f s).2.Upholds c inv t₀ :=
  (h.act hc ha).1

include hc in
theorem Upholds.openAs (h : s.Upholds c inv t₀) {a : Action α} {returns : α → Prop}
    (ha : a.Keeps c returns) (name : String) {f : α → OpenItem}
    (hf : ∀ x, returns x → (f x).MayUpload c) : (openAs name a f s).2.Upholds c inv t₀ := by
  obtain ⟨hleft, hreturns⟩ := h.act hc ha
  unfold Session.openAs
  split
  next x _ heq =>
    rw [heq] at hleft hreturns
    exact hleft.setItem name (hf x (hreturns x rfl))
  next heq =>
    rw [heq] at hleft
    exact hleft

include hc in
theorem Upholds.mounted (h : s.Upholds c inv t₀) {a : MountAction α}
    (ha : a.Keeps c (Mount.MayUpload c) (fun _ => True)) (f : α → Reply) :
    (mounted a f s).2.Upholds c inv t₀ := by
  obtain ⟨hleft, hmount⟩ := h.perform hc (ha s.mount h.mount)
  unfold Session.mounted
  rw [h.tree.bucket_eq]
  split
  next heq =>
    rw [heq] at hleft hmount
    exact { hleft with mount := (hmount _ rfl).1 }
  next heq =>
    rw [heq] at hleft hmount
    exact { hleft with mount := (hmount _ rfl).1 }
  next heq =>
    rw [heq] at hleft hmount
    exact { hleft with mount := (hmount _ rfl).1 }
  next heq =>
    rw [heq] at hleft
    exact hleft

/-! ## Steps -/

theorem Upholds.storeStep (h : s.Upholds c inv t₀) {step : StoreStep}
    (hstep : step.IsPermitted c inv) (target : String) :
    (storeStep target step s).2.Upholds c inv t₀ := by
  cases step with
  | request q => exact hstep.elim
  | hook rule =>
      have hrules : ∀ r ∈ s.world.rules ++ [rule], r.Respects c inv :=
        List.forall_mem_append.2 ⟨h.world.rules, List.forall_mem_singleton.2 hstep⟩
      exact { h with world := ⟨hrules, h.world.bucket⟩ }
  | unhook => exact { h with world := ⟨fun _ hr => absurd hr List.not_mem_nil, h.world.bucket⟩ }
  | _ => exact h

include hc in
theorem Upholds.treeStep (h : s.Upholds c inv t₀) {t : Tree} (ht : t.IsLike t₀)
    (hfiles : c.PermitsFiles t₀.suffix) {step : TreeStep} (hstep : step.IsPermitted c t₀) :
    (treeStep t step s).2.Upholds c inv t₀ := by
  have hread := hc.reading
  have hfiles := ht.permitsFiles hfiles
  cases step with
  | isFile path => exact h.reply hc (Tree.keeps_isFile hread t path) _
  | isDirectory path => exact h.reply hc (Tree.keeps_isDirectory hread t path) _
  | pathExists path => exact h.reply hc (Tree.keeps_exists? hread t path) _
  | setMode mode => exact h.reply hc (Action.keeps_ofExcept fun _ _ => trivial) _
  | status path => exact h.reply hc (Tree.keeps_status hread t path) _
  | list path isRecursive cancel =>
      exact h.reply hc (Tree.keeps_list hread t path isRecursive cancel) _
  | delete path isRecursive cancel =>
      exact h.reply hc (Tree.keeps_delete hread t path isRecursive cancel
        (ht.permitsDelete hstep)) _
  | rename source destination cancel overwrite =>
      exact h.reply hc (Tree.keeps_rename hread t cancel overwrite (ht.permitsRenaming hstep)) _
  | mkdirs path createParents => exact h.reply hc (Tree.keeps_mkdirs hfiles path createParents) _
  | write path data createParents =>
      exact h.reply hc (Tree.keeps_writeFile hfiles path data createParents) _
  | read path offset size => exact h.reply hc (Tree.keeps_readOnceAny hread t path offset size) _
  | create name path createParents =>
      exact h.openAs hc (Tree.keeps_create hfiles path createParents) name fun _ hw => hw
  | openForWrite name path data =>
      exact h.openAs hc (Tree.keeps_openForWrite hfiles path data) name fun _ hw => hw
  | openForRead name path offset =>
      exact h.openAs hc (Tree.keeps_openForRead hread t path offset) name fun _ _ => trivial
  | listing name path isRecursive cancel =>
      exact h.openAs hc (t.keeps_listing path isRecursive cancel) name fun _ _ => trivial
  | close => exact { h with tree := h.tree.close }
  | scope => exact { h with tree := h.tree.close }
  | _ => exact h

theorem keeps_remaining (hread : c.PermitsReading) (pages : Nat) (l : Listing) :
    (remaining pages l).Keeps c (fun _ => True) := by
  induction pages generalizing l with
  | zero => exact Program.keeps_endless
  | succ pages ih =>
      refine (Listing.keeps_next hread l).bind fun r _ => ?_
      split
      · exact Program.keeps_pure trivial
      · exact Program.keeps_pure trivial
      · exact (ih _).bind fun _ _ => Program.keeps_pure trivial

include hc in
/-- Reading the rest of a listing preserves the invariant. -/
theorem Upholds.listingRest (h : s.Upholds c inv t₀) (name : String) (pages : Nat) (l : Listing)
    (f : List Chunk → Option Fault → Reply) :
    Upholds c inv t₀ (match Session.perform t₀.bucket (remaining pages l) s with
      | (.ok ((chunks, fault), l), s) =>
          ((.ok (f chunks fault), s.setItem name (.listing l)) : Except Trouble Reply × Session)
      | (.error trouble, s) => (.error trouble, s)).2 := by
  have hleft := (h.perform hc (keeps_remaining hc.reading pages l)).1
  split
  next heq =>
    rw [heq] at hleft
    exact hleft.setItem name trivial
  next heq =>
    rw [heq] at hleft
    exact hleft

include hc in
theorem Upholds.listingStep (h : s.Upholds c inv t₀) {t : Tree} (ht : t.bucket = t₀.bucket)
    (name : String) (step : ListingStep) : (listingStep t name step s).2.Upholds c inv t₀ := by
  cases step with
  | make under isRecursive pageSize cancel =>
      unfold Session.listingStep
      dsimp only
      split
      · exact h.setItem name trivial
      · exact h
  | next =>
      unfold Session.listingStep
      dsimp only
      rw [ht]
      split
      next l _ =>
        have hleft := (h.perform hc (Listing.keeps_next hc.reading l)).1
        split
        next heq =>
          rw [heq] at hleft
          exact hleft.setItem name trivial
        next heq =>
          rw [heq] at hleft
          exact hleft.setItem name trivial
        next heq =>
          rw [heq] at hleft
          exact hleft.setItem name trivial
        next heq =>
          rw [heq] at hleft
          exact hleft
      next => exact h
  | all =>
      unfold Session.listingStep
      dsimp only
      rw [ht]
      split
      · exact h.listingRest hc name _ _ _
      · exact h
  | keys =>
      unfold Session.listingStep
      dsimp only
      rw [ht]
      split
      · exact h.listingRest hc name _ _ _
      · exact h
  | describe =>
      unfold Session.listingStep
      dsimp only
      split
      · exact h
      · exact h

section Writers

variable {w : Writer}

theorem Upholds.kept (h : s.Upholds c inv t₀) (name : String) (hw : c.PermitsUploads w.key)
    {result : Except Misuse α × Writer} (hkey : result.2.key = w.key) (f : α → Reply) :
    (kept name result f s).2.Upholds c inv t₀ := by
  rw [← hkey] at hw
  exact h.setItem name hw

include hc in
theorem Upholds.performKept (h : s.Upholds c inv t₀) (name : String)
    (hw : c.PermitsUploads w.key) {p : Program (Except Fault Unit × Writer)}
    (hp : p.Keeps c (fun r => r.2.key = w.key)) :
    (performKept t₀.bucket name p s).2.Upholds c inv t₀ := by
  obtain ⟨hleft, hkey⟩ := h.perform hc hp
  unfold Session.performKept
  split
  next heq =>
    rw [heq] at hleft hkey
    rw [← hkey _ rfl] at hw
    exact hleft.setItem name hw
  next heq =>
    rw [heq] at hleft hkey
    rw [← hkey _ rfl] at hw
    exact hleft.setItem name hw
  next heq =>
    rw [heq] at hleft
    exact hleft

/-- A step on the writer of a name preserves the invariant, if the step does so for every writer
whose uploads are permitted. -/
theorem Upholds.onWriter (h : s.Upholds c inv t₀) (name : String)
    {f : Writer → Except Trouble Reply × Session}
    (hf : ∀ w, c.PermitsUploads w.key → (f w).2.Upholds c inv t₀) :
    Upholds c inv t₀ (match s.item? name with
      | some (.writer w) => f w
      | _ => (.error (.noHandle name), s)).2 := by
  split
  next w hw => exact hf w (h.of_item? hw)
  next => exact h

include hc in
theorem Upholds.writerStep (h : s.Upholds c inv t₀) {t : Tree} (ht : t.bucket = t₀.bucket)
    (name : String) {step : WriterStep} (hstep : step.IsPermitted c) :
    (writerStep t name step s).2.Upholds c inv t₀ := by
  have hperform : ∀ {w : Writer} {p : Program (Except Fault Unit × Writer)},
      c.PermitsUploads w.key → p.Keeps c (fun r => r.2.key = w.key) →
        (Session.performKept t.bucket name p s).2.Upholds c inv t₀ := fun hw hp => by
    rw [ht]
    exact h.performKept hc name hw hp
  cases step with
  | make key data maxSize =>
      refine h.setItem name ?_
      show c.PermitsUploads (Writer.start key data maxSize).key
      exact hstep
  | drop => exact h.dropItem name
  | write data => exact h.onWriter name fun w hw => h.kept name hw (w.key_write data) _
  | writeAt data offset =>
      exact h.onWriter name fun w hw => h.kept name hw (w.key_writeAtAny data offset) _
  | readAt offset size =>
      exact h.onWriter name fun w hw => h.kept name hw (w.key_readAtAny offset size) _
  | truncate size =>
      exact h.onWriter name fun w hw => h.kept name hw (w.key_truncateAny size) _
  | size => exact h.onWriter name fun w hw => h.kept name hw rfl _
  | tell => exact h.onWriter name fun w hw => h.kept name hw rfl _
  | sync => exact h.onWriter name fun w hw => hperform hw (Writer.keeps_sync hw)
  | abort => exact h.onWriter name fun w hw => h.kept name hw w.key_abort _
  | close => exact h.onWriter name fun w hw => hperform hw (Writer.keeps_close hw)
  | describe => exact h.onWriter name fun _ _ => h
  | scope items fault =>
      exact h.onWriter name fun w hw => hperform hw (Writer.keeps_scope hw items fault)

end Writers

theorem Upholds.readerStep (h : s.Upholds c inv t₀) (name : String) (step : ReaderStep) :
    (readerStep name step s).2.Upholds c inv t₀ := by
  have hkeep : ∀ r, (s.setItem name (.reader r)).Upholds c inv t₀ := fun _ =>
    h.setItem name trivial
  cases step with
  | make key offset stream => exact hkeep _
  | _ =>
      unfold Session.readerStep
      dsimp only
      split
      next => first | exact hkeep _ | exact h
      next => exact h

theorem keeps_checkCancelledAny (token : Option Token) (context : Value) :
    (Action.checkCancelledAny token context).Keeps c (fun _ => True) := by
  unfold Action.checkCancelledAny
  split
  · exact Action.keeps_checkCancelled token none
  · exact Action.keeps_checkCancelled token _
  · refine (Action.keeps_lift (Program.keeps_isCancelled token)).bind fun flag _ => ?_
    split
    · exact Action.keeps_throw _
    · exact Action.keeps_pure trivial

include hc in
theorem Upholds.cancelStep (h : s.Upholds c inv t₀) (step : CancelStep) :
    (cancelStep step s).2.Upholds c inv t₀ := by
  cases step with
  | cancel token => exact { h with world := h.world.cancel (some token) }
  | isCancelled token => exact h
  | check token context => exact h.reply hc (keeps_checkCancelledAny token context) _

include hc in
theorem Upholds.mountStep (h : s.Upholds c inv t₀) {t : Tree} (ht : t.IsLike t₀)
    (hfiles : c.PermitsFiles t₀.suffix) {step : MountStep} (hstep : step.IsPermitted c t₀) :
    (mountStep t step s).2.Upholds c inv t₀ := by
  have hfiles := ht.permitsFiles hfiles
  cases step with
  | attributes path handle =>
      exact h.mounted hc ((Mount.keeps_handleBesidePath handle).bind fun handle _ =>
        Mount.keeps_getAttributes hfiles path handle) _
  | readDirectory path => exact h.mounted hc (Mount.keeps_readDirectory hfiles path) _
  | makeDirectory path mode => exact h.mounted hc (Mount.keeps_makeDirectory hfiles path mode) _
  | removeDirectory path =>
      exact h.mounted hc (Mount.keeps_removeDirectory hfiles path (ht.permitsDelete hstep)) _
  | unlink path => exact h.mounted hc (Mount.keeps_unlink hfiles path (ht.permitsDelete hstep)) _
  | rename source destination =>
      exact h.mounted hc (Mount.keeps_rename hfiles (ht.permitsRenaming hstep)) _
  | create path mode => exact h.mounted hc (Mount.keeps_create hfiles path mode) _
  | openFile path flags => exact h.mounted hc (Mount.keeps_openFileAny hfiles path flags) _
  | read path size offset handle =>
      exact h.mounted hc ((Mount.keeps_searchedHandle handle).bind fun handle _ =>
        Mount.keeps_readAny hfiles path size offset handle) _
  | write data offset handle =>
      exact h.mounted hc ((Mount.keeps_searchedHandle handle).bind fun handle _ =>
        Mount.keeps_writeAny data offset handle) _
  | truncate path length handle =>
      exact h.mounted hc ((Mount.keeps_handleBesidePath handle).bind fun handle _ =>
        Mount.keeps_truncateAny hfiles path length handle) _
  | sync handle =>
      exact h.mounted hc ((Mount.keeps_searchedHandle handle).bind fun handle _ =>
        Mount.keeps_sync handle) _
  | release handle =>
      exact h.mounted hc ((Mount.keeps_handleTakenOut handle).bind fun handle _ =>
        Mount.keeps_release handle) _
  | changeMode mode => exact h.mounted hc Mount.keeps_passed _
  | destroy => exact h.mounted hc Mount.keeps_destroy _
  | _ => exact h

/-! ## Whole sessions -/

variable (hfiles : c.PermitsFiles t₀.suffix)

include hc hfiles in
theorem Upholds.dispatch (h : s.Upholds c inv t₀) {step : Step}
    (hstep : step.IsPermitted c inv t₀) : (dispatch step s).2.Upholds c inv t₀ := by
  -- a limit on the pages of a walk has nothing to do with what the paths name
  have htree : ({ s.tree with pageLimit := s.world.pageLimit s.tree.bucket } : Tree).IsLike t₀ :=
    ⟨h.tree.bucket_eq, h.tree.suffix_eq, h.tree.resolves⟩
  cases step with
  | store target step => exact h.storeStep hstep _
  | tree step => exact h.treeStep hc htree hfiles hstep
  | directory step => exact hstep.elim
  | move step => exact hstep.elim
  | listing name step => exact h.listingStep hc htree.bucket_eq name step
  | writer name step => exact h.writerStep hc htree.bucket_eq name hstep
  | reader name step => exact h.readerStep name step
  | cancel step => exact h.cancelStep hc step
  | mount step => exact h.mountStep hc htree hfiles hstep

include hc hfiles in
/-- Every permitted step preserves the invariant. -/
theorem Upholds.runStep (h : s.Upholds c inv t₀) {step : Step}
    (hstep : step.IsPermitted c inv t₀) : (runStep step s).2.Upholds c inv t₀ := by
  -- blocks that nobody holds any more are reclaimed, and the log of the requests is cleared
  have hleft := (h.dispatch hc hfiles hstep).reclaim
  exact { hleft with world := ⟨hleft.world.rules, hleft.world.bucket⟩ }

include hc hfiles in
/-- After any number of permitted steps, the contents of the bucket satisfy `inv`. -/
theorem Upholds.runSteps {steps : List Step} (hsteps : ∀ step ∈ steps, step.IsPermitted c inv t₀)
    (h : s.Upholds c inv t₀) : inv ((runSteps steps s).2.bucket t₀.bucket).contents := by
  induction steps generalizing s with
  | nil => exact h.world.bucket
  | cons step rest ih =>
      obtain ⟨hstep, hrest⟩ := List.forall_mem_cons.1 hsteps
      exact ih hrest (h.runStep hc hfiles hstep)

end Session

end BucketTree
