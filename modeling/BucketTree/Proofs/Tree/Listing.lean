import BucketTree.Proofs.Program.Traced
import BucketTree.Proofs.Store.Paging
import BucketTree.Tree.Listing

/-!
# Walking over a listing

The next chunk of a listing holds the first names after its token, or the listing fails, which it
does only where it `MayBreak`. A walk visits the names page by page (`ensures_walk_pages`). This
rule is used in two forms: for visits that delete or move the keys, which go through all keys with a
prefix as long as the keys left are those that the bucket still has (`ensures_walk_keys`,
`ensures_walk`); and for visits that leave the bucket alone (`ensures_walk_unchanged`).
-/

set_option autoImplicit false

namespace BucketTree

namespace Chunk

/-- The chunk of the first `size` names. -/
def ofNames (names : List ServedName) (size : Nat) : Chunk :=
  { keys := ((names.take size).filter fun e => !e.isGroup).map (·.name)
    groups := ((names.take size).filter fun e => e.isGroup).map (·.name)
    next := if size < names.length then (names.take size).getLast?.map (·.name) else none }

/-- A chunk of keys without groups. -/
theorem ofNames_keys (keys : List Key) (size : Nat) :
    ofNames (keys.map fun key => ⟨key, false⟩) size =
      ⟨keys.take size, [], if size < keys.length then (keys.take size).getLast? else none⟩ := by
  have hserved : (keys.map fun key => (⟨key, false⟩ : ServedName)).take size =
      (keys.take size).map fun key => ⟨key, false⟩ := List.map_take.symm
  unfold ofNames
  rw [hserved]
  simp [-List.map_take, List.filter_map, Function.comp_def]

/-- A chunk with a token leaves names over. -/
theorem lt_of_next {names : List ServedName} {size : Nat} {token : String}
    (h : (ofNames names size).next = some token) : size < names.length := by
  by_contra hall
  have hnone : (ofNames names size).next = none := if_neg hall
  rw [hnone] at h
  cases h

end Chunk

namespace Listing

/-- The names of a bucket that a listing has not served yet. -/
def namesLeft (l : Listing) (b : Bucket) : List ServedName :=
  Bucket.namesAfter l.token (b.servedNames (l.under.getD "") l.delimiter)

/-- The failures of a listing: an invalid or failed page, and a cancellation. -/
def IsFailure (failure : Failure) : Prop :=
  failure.kind = .listing ∨ failure.kind = .cancelled

/-- A page that `chunkOf` rejects is a failure of the listing. -/
theorem kind_of_chunkOf {l : Listing} {page : Option Page} {failure : Failure}
    (h : l.chunkOf page = .error failure) : failure.kind = .listing := by
  unfold chunkOf at h
  split at h
  · split at h
    · cases h
      rfl
    · cases h
  · cases h
    rfl

/-- A listing with this page size and token may fail: it has a token, or some page with this size
may fail. -/
def MayBreak (fails : Request → Fault → Prop) (pageSize : Value) (cancel : Option Token) : Prop :=
  cancel ≠ none ∨ ∃ request fault, request.maxKeys = pageSize ∧ fails (.list request) fault

/-- Every page of a bucket is accepted, since its continuation token comes after the token of its
request. -/
theorem chunkOf_page (l : Listing) (b : Bucket) (size : Nat) :
    l.chunkOf (some (b.page l.pageRequest size)) = .ok (Chunk.ofNames (l.namesLeft b) size) := by
  have hadvances : ¬ ((Chunk.ofNames (l.namesLeft b) size).next.isSome &&
      (Chunk.ofNames (l.namesLeft b) size).next == l.token) = true := by
    intro hstuck
    obtain ⟨hsome, hsame⟩ := Bool.and_eq_true_iff.1 hstuck
    obtain ⟨token, htoken⟩ := Option.isSome_iff_exists.1 hsome
    obtain ⟨-, ⟨last, hlast, rfl⟩, -⟩ :=
      Bucket.next_eq_some (Bucket.namesAfter_increasing _ _ _ b) htoken
    rw [htoken] at hsame
    exact String.lt_irrefl _
      ((Bucket.mem_namesAfter.1 (List.mem_of_mem_take hlast)).2 _ (eq_of_beq hsame).symm)
  exact if_neg hadvances

variable {ρ : Type} {fails : Request → Fault → Prop} {sends : Request → Bucket → Prop}

/-- Rule for the next chunk of an unfinished listing, which leaves the bucket alone. -/
theorem ensures_next {l : Listing} {b : Bucket}
    {post : Option (Except Fault (Option Chunk) × Listing) → Bucket → Prop}
    (hopen : l.isDone = false) (hsend : sends (.list l.pageRequest) b)
    (hchunk : ∀ size, 1 ≤ size →
      post (some (.ok (some (Chunk.ofNames (l.namesLeft b) size)),
        { l with
          fetched := l.fetched + 1
          token := (Chunk.ofNames (l.namesLeft b) size).next
          isDone := (Chunk.ofNames (l.namesLeft b) size).next.isNone })) b)
    (hfail : ∀ failure l', IsFailure failure → MayBreak fails l.pageSize l.cancel →
      post (some (.error (.known failure), l')) b) :
    l.next.Ensures (Bucket.environment fails) sends post b := by
  unfold next
  rw [hopen]
  refine Program.ensures_bind (Program.ensures_isCancelled ?_ ?_)
  · refine Program.ensures_bind (Program.ensures_request hsend ?_)
    intro outcome b' hanswer
    cases hanswer with
    | failed hfault => exact hfail _ _ (Or.inl rfl) (Or.inr ⟨_, _, rfl, hfault⟩)
    | absent hneeds hkey => cases hneeds
    | @list _ _ size hsize =>
        dsimp only
        rw [l.chunkOf_page b size]
        exact hchunk size hsize
  · intro name hname _
    exact hfail _ _ (Or.inr rfl) (Or.inl (hname ▸ Option.some_ne_none name))

/-! ## Whole walks -/

/-- The number of pages that a walk over the names left takes at most, with the final look at the
finished listing. -/
def pagesNeeded (isDone : Bool) (left : List ServedName) : Nat :=
  if isDone then 1 else left.length + 2

theorem one_le_pagesNeeded (isDone : Bool) (left : List ServedName) :
    1 ≤ pagesNeeded isDone left := by
  unfold pagesNeeded
  split <;> omega

/-- Each page takes at least one of the names left. -/
theorem pagesNeeded_next {names : List ServedName} {size : Nat} (hsize : 1 ≤ size) :
    pagesNeeded (Chunk.ofNames names size).next.isNone (names.drop size) + 1 ≤
      pagesNeeded false names := by
  unfold pagesNeeded
  rw [if_neg Bool.false_ne_true, List.length_drop]
  cases htoken : (Chunk.ofNames names size).next with
  | none =>
      rw [Option.isNone_none, if_pos rfl]
      omega
  | some token =>
      have hmore := Chunk.lt_of_next htoken
      rw [Option.isNone_some, if_neg Bool.false_ne_true]
      omega

section Pages

variable {σ : Type} {env : Environment σ} {allowed : Request → σ → Prop}
  {pageSize : Value} {cancel : Option Token} {visit : Chunk → Walk ρ Unit}
  {done : ρ → σ → Prop} {stop : Fault → ρ → σ → Prop} {endless : σ → Prop}

/-- The listing after a chunk. -/
def advance (l : Listing) (chunk : Chunk) : Listing :=
  { l with fetched := l.fetched + 1, token := chunk.next, isDone := chunk.next.isNone }

/-- The outcome of asking for the next chunk: a chunk of the first names, or a fault. -/
def Serves (l : Listing) (names : List ServedName) (served : σ → Prop) (failed : Fault → σ → Prop) :
    Option (Except Fault (Option Chunk) × Listing) → σ → Prop
  | some (.ok (some chunk), l'), s =>
      ∃ size, 1 ≤ size ∧ chunk = Chunk.ofNames names size ∧ l' = l.advance chunk ∧ served s
  | some (.error fault, _), s => failed fault s
  | _, _ => False

/-- Rule for a walk, with an invariant `inv` over the token and the names left; `done` holds after
the last page. The walk is given up only when `pages` is too small for the names. -/
theorem ensures_walk_pages (under : Option String) (isRecursive : Bool)
    (inv : Option String → List ServedName → ρ → σ → Prop) (few : Prop)
    (hnext : ∀ (l : Listing) (names : List ServedName) (record : ρ) (s : σ), l.under = under →
      l.isRecursive = isRecursive → l.pageSize = pageSize → l.cancel = cancel →
      l.isDone = false → inv l.token names record s →
      l.next.Ensures env allowed
        (Serves l names (inv l.token names record) (fun fault => stop fault record)) s)
    (hvisit : ∀ token names record s size, inv token names record s → 1 ≤ size →
      (visit (Chunk.ofNames names size)).Ensures env allowed
        (Walk.Ends (fun _ record s =>
          match (Chunk.ofNames names size).next with
          | none => done record s
          | some token => inv (some token) (names.drop size) record s) stop endless) record s)
    (hendless : few → ∀ record s, (done record s ∨ ∃ token names, inv token names record s) →
      endless s) :
    ∀ (pages : Nat) (l : Listing) (names : List ServedName) (record : ρ) (s : σ),
      l.under = under → l.isRecursive = isRecursive → l.pageSize = pageSize → l.cancel = cancel →
      (l.isDone = true → done record s) → (l.isDone = false → inv l.token names record s) →
      (pages < pagesNeeded l.isDone names → few) →
      (l.walk visit pages).Ensures env allowed
        (Walk.Ends (fun _ => done) stop endless) record s := by
  intro pages
  induction pages with
  | zero =>
      intro l names record s _ _ _ _ hdone hinv hfew
      refine hendless (hfew (one_le_pagesNeeded _ _)) record s ?_
      cases hopen : l.isDone with
      | true => exact Or.inl (hdone hopen)
      | false => exact Or.inr ⟨_, _, hinv hopen⟩
  | succ pages ih =>
      intro l names record s hunder hrecursive hsize hcancel hdone hinv hfew
      refine Walk.ensures_bind (Walk.ensures_ofAction (Action.ensures_lift ?_))
      cases hopen : l.isDone with
      | true =>
          -- a finished listing sends nothing
          unfold next
          rw [hopen]
          exact hdone hopen
      | false =>
          refine (hnext l names record s hunder hrecursive hsize hcancel hopen (hinv hopen)).mono ?_
          rintro (_ | ⟨fault | _ | chunk, l'⟩) s' hserved
          · exact hserved.elim
          · exact hserved
          · exact hserved.elim
          · obtain ⟨size, hsize', rfl, rfl, hserved⟩ := hserved
            refine Walk.ensures_bind ((hvisit _ _ _ _ size hserved hsize').mono ?_)
            rintro (_ | ⟨fault | _, record'⟩) s' hend
            · exact hend
            · exact hend
            · refine ih _ (names.drop size) record' s' hunder hrecursive hsize hcancel ?_ ?_ ?_
              · intro hnone
                rwa [Option.isNone_iff_eq_none.1 hnone] at hend
              · intro hsome
                obtain ⟨token, htoken⟩ :=
                  Option.isSome_iff_exists.1 (Option.isNone_eq_false_iff.1 hsome)
                unfold advance
                dsimp only at hend ⊢
                rw [htoken] at hend ⊢
                exact hend
              · intro hpages
                rw [hopen] at hfew
                exact hfew (Nat.lt_of_lt_of_le (Nat.succ_lt_succ hpages) (pagesNeeded_next hsize'))

section Keys

variable {f : Key → Walk ρ PUnit} {under : String} {inv : List Key → ρ → σ → Prop}

/-- The invariant of a walk over keys: the names left are the keys left, they come after the token,
and there are some unless there were none at first. -/
def KeysLeft (keys : List Key) (inv : List Key → ρ → σ → Prop) (token : Option String)
    (names : List ServedName) (record : ρ) (s : σ) : Prop :=
  ∃ left : List Key, (names = left.map fun key => ⟨key, false⟩) ∧ inv left record s ∧
    (left = [] → keys = []) ∧ ∀ last, token = some last → ∀ key ∈ left, last < key

/-- If the keys of the bucket with the prefix are those left, so are the names after the token. -/
theorem namesAfter_keysLeft {b : Bucket} {token : Option String} {left : List Key}
    (hleft : b.keysUnder under = left)
    (htoken : ∀ last, token = some last → ∀ key ∈ left, last < key) :
    Bucket.namesAfter token (b.servedNames under "") = left.map fun key => ⟨key, false⟩ := by
  rw [Bucket.servedNames_ungrouped, hleft]
  cases token with
  | none => rfl
  | some last =>
      apply List.filter_eq_self.2
      intro e he
      obtain ⟨key, hkey, rfl⟩ := List.mem_map.1 he
      exact decide_eq_true (htoken last rfl key hkey)

/-- After a page, the keys left come after its token; without a token none are left. -/
theorem keysLeft_next {keys left : List Key} {size : Nat} {record : ρ} {s : σ} (hsize : 1 ≤ size)
    (hsorted : left.Pairwise (· < ·)) (hinv : inv (left.drop size) record s) :
    match (Chunk.ofNames (left.map fun key => ⟨key, false⟩) size).next with
    | none => inv [] record s
    | some token =>
        KeysLeft keys inv (some token) ((left.map fun key => ⟨key, false⟩).drop size) record s := by
  have hnames : (left.map fun key => (⟨key, false⟩ : ServedName)).Pairwise
      fun x y => x.name < y.name := List.pairwise_map.2 hsorted
  cases hnext : (Chunk.ofNames (left.map fun key => ⟨key, false⟩) size).next with
  | none =>
      have hall := Bucket.take_of_next_none hsize hnext
      rw [List.length_map] at hall
      rwa [List.drop_eq_nil_of_le hall] at hinv
  | some token =>
      obtain ⟨-, -, -, hafter⟩ := Bucket.next_eq_some hnames hnext
      have hmore := Chunk.lt_of_next hnext
      rw [List.length_map] at hmore
      refine ⟨left.drop size, List.map_drop.symm, hinv, ?_, ?_⟩
      · intro hnil
        exact absurd (List.drop_eq_nil_iff.1 hnil) (Nat.not_le.2 hmore)
      · rintro _ ⟨⟩ key hkey
        apply hafter ⟨key, false⟩
        rw [← List.map_drop]
        exact List.mem_map_of_mem hkey

/-- Rule for a walk over all keys with a prefix, with an invariant `inv` over the keys left, which
are those that the bucket still has with the prefix. A page is asked for while keys are left, or
when there were none at first. The walk is given up only when `pages` is too small. -/
theorem ensures_walk_keys (view : σ → Bucket) {pages : Nat} {keys : List Key} {record : ρ} {s : σ}
    (hleft : ∀ left record s, inv left record s → (view s).keysUnder under = left)
    (hnext : ∀ (l : Listing) left record s, l.pageSize = pageSize → l.cancel = cancel →
      l.isDone = false → inv left record s → (left = [] → keys = []) →
      l.namesLeft (view s) = (left.map fun key => ⟨key, false⟩) →
      l.next.Ensures env allowed (Serves l (left.map fun key => ⟨key, false⟩) (inv left record)
        (fun fault => stop fault record)) s)
    (hf : ∀ key left record s, inv (key :: left) record s →
      (f key).Ensures env allowed (Walk.Ends (fun _ => inv left) stop endless) record s)
    (hendless : pages < keys.length + 2 → ∀ left record s, inv left record s → endless s)
    (hinv : inv keys record s) :
    ((start (some under) true pageSize cancel).walk (fun chunk => chunk.keys.forM f) pages).Ensures
      env allowed (Walk.Ends (fun _ => inv []) stop endless) record s := by
  refine ensures_walk_pages (some under) true (KeysLeft keys inv) (pages < keys.length + 2)
    ?_ ?_ ?_ pages _ (keys.map fun key => ⟨key, false⟩) record s rfl rfl rfl rfl ?_ ?_ ?_
  · rintro l _ record s hunder hrecursive hsize hcancel hopen ⟨left, rfl, h, hsome, htoken⟩
    have hnames : l.namesLeft (view s) = left.map fun key => ⟨key, false⟩ := by
      unfold namesLeft delimiter
      rw [hunder, hrecursive, if_pos rfl]
      exact namesAfter_keysLeft (hleft left record s h) htoken
    refine (hnext l left record s hsize hcancel hopen h hsome hnames).mono ?_
    rintro (_ | ⟨fault | _ | chunk, l'⟩) s' hserved
    · exact hserved.elim
    · exact hserved
    · exact hserved.elim
    · obtain ⟨size, hsize', hchunk, hl', hserved⟩ := hserved
      exact ⟨size, hsize', hchunk, hl', left, rfl, hserved, hsome, htoken⟩
  · rintro token _ record s size ⟨left, rfl, h, -⟩ hsize
    have hsorted := (view s).keysUnder_increasing under
    rw [hleft left record s h] at hsorted
    -- the visit goes through the keys of the page and leaves the others
    have hparts : inv (left.take size ++ left.drop size) record s := by
      rwa [List.take_append_drop]
    have hvisit := Walk.ensures_forM hf _ _ record s hparts
    have hkeys : (Chunk.ofNames (left.map fun key => ⟨key, false⟩) size).keys = left.take size := by
      rw [Chunk.ofNames_keys]
    rw [hkeys]
    refine hvisit.mono ?_
    rintro (_ | ⟨fault | _, record'⟩) s' hend
    · exact hend
    · exact hend
    · exact keysLeft_next hsize hsorted hend
  · rintro hpages record s (h | ⟨token, names, left, -, h, -⟩)
    · exact hendless hpages [] record s h
    · exact hendless hpages left record s h
  · intro hdone
    cases hdone
  · intro _
    refine ⟨keys, rfl, hinv, id, ?_⟩
    rintro _ ⟨⟩
  · intro hpages
    change pages < (keys.map _).length + 2 at hpages
    rwa [List.length_map] at hpages

end Keys

end Pages

/-! ## Walks over a bucket -/

variable {pageSize : Value} {cancel : Option Token} {stop : Fault → ρ → Bucket → Prop}
  {endless : Bucket → Prop}

/-- Asking for the next chunk gives the first names left, or the listing fails. -/
theorem ensures_next_serves {l : Listing} {b : Bucket} {names : List ServedName}
    {served : Bucket → Prop} {failed : Fault → Bucket → Prop} (hopen : l.isDone = false)
    (hleft : l.namesLeft b = names) (hsend : sends (.list l.pageRequest) b) (hserved : served b)
    (hfailed : ∀ failure, IsFailure failure → MayBreak fails l.pageSize l.cancel →
      failed (.known failure) b) :
    l.next.Ensures (Bucket.environment fails) sends (Serves l names served failed) b := by
  apply ensures_next hopen hsend
  · intro size hsize
    rw [hleft]
    exact ⟨size, hsize, rfl, rfl, hserved⟩
  · intro failure _ hfailure hbreak
    exact hfailed failure hfailure hbreak

/-- Without faults, asking for the next chunk gives one unless the token is set. -/
theorem ensures_next_traced {token : Token} {isSet : List Request → Bool} {l : Listing}
    {w : Traced Bucket} {names : List ServedName} {sends : Request → Traced Bucket → Prop}
    {served : Traced Bucket → Prop} {failed : Fault → Traced Bucket → Prop}
    (hopen : l.isDone = false) (hcancel : l.cancel = some token)
    (hleft : l.namesLeft w.state = names) (hsend : sends (.list l.pageRequest) w)
    (hpages : ∀ fault, ¬ fails (.list l.pageRequest) fault)
    (hserved : isSet w.sent = false → served ⟨w.state, w.sent ++ [.list l.pageRequest]⟩)
    (hfailed : isSet w.sent = true → failed (.known (.cancelled (some l.context))) w) :
    l.next.Ensures ((Bucket.environment fails).traced token isSet) sends
      (Serves l names served failed) w := by
  unfold next
  rw [hopen]
  refine Program.ensures_bind (Program.ensures_isCancelled_traced hcancel ?_)
  cases hset : isSet w.sent with
  | true => exact hfailed hset
  | false =>
      refine Program.ensures_bind (Program.ensures_request hsend ?_)
      rintro outcome ⟨b', sent⟩ ⟨hanswer, rfl⟩
      cases hanswer with
      | failed hfault => exact absurd hfault (hpages _)
      | absent hneeds hkey => cases hneeds
      | @list _ _ size hsize =>
          dsimp only
          rw [l.chunkOf_page w.state size, hleft]
          exact ⟨size, hsize, rfl, rfl, hserved hset⟩

section Keys

variable {f : Key → Walk ρ PUnit} {under : String} {inv : List Key → ρ → Bucket → Prop}

/-- The lemma `ensures_walk_keys` on a bucket. -/
theorem ensures_walk {pages : Nat} {keys : List Key} {record : ρ} {b : Bucket}
    (hleft : ∀ left record b, inv left record b → b.keysUnder under = left)
    (hsend : ∀ left record b request, inv left record b → sends (.list request) b)
    (hf : ∀ key left record b, inv (key :: left) record b →
      (f key).Ensures (Bucket.environment fails) sends
        (Walk.Ends (fun _ => inv left) stop endless) record b)
    (hstop : ∀ left record b failure, inv left record b → IsFailure failure →
      MayBreak fails pageSize cancel → stop (.known failure) record b)
    (hendless : pages < keys.length + 2 → ∀ left record b, inv left record b → endless b)
    (hinv : inv keys record b) :
    ((start (some under) true pageSize cancel).walk (fun chunk => chunk.keys.forM f) pages).Ensures
      (Bucket.environment fails) sends (Walk.Ends (fun _ => inv []) stop endless) record b := by
  refine ensures_walk_keys id hleft ?_ hf hendless hinv
  intro l left record b hsize hcancel hopen h _ hnames
  refine ensures_next_serves hopen hnames (hsend left record b _ h) h ?_
  rw [hsize, hcancel]
  exact fun failure => hstop left record b failure h

end Keys

section Unchanged

variable {under : Option String} {isRecursive : Bool} {visit : Chunk → Walk ρ Unit}
  {inv : List ServedName → ρ → Prop} {b : Bucket}

/-- Rule for a walk whose visits leave the bucket alone, with an invariant `inv` over the names
left. The walk is given up only when `pages` is too small. -/
theorem ensures_walk_unchanged {pages : Nat} {record : ρ} {names : List ServedName}
    (hnames : b.servedNames (under.getD "") (start under isRecursive pageSize cancel).delimiter =
      names)
    (hsend : ∀ request, sends (.list request) b)
    (hvisit : ∀ left record size, 1 ≤ size → inv left record →
      (visit (Chunk.ofNames left size)).Ensures (Bucket.environment fails) sends
        (Walk.Ends (fun _ record b' => b' = b ∧ inv (left.drop size) record) stop endless) record b)
    (hstop : ∀ left record failure, inv left record → IsFailure failure →
      MayBreak fails pageSize cancel → stop (.known failure) record b)
    (hendless : pages < names.length + 2 → endless b) (hinv : inv names record) :
    ((start under isRecursive pageSize cancel).walk visit pages).Ensures (Bucket.environment fails)
      sends (Walk.Ends (fun _ record b' => b' = b ∧ inv [] record) stop endless) record b := by
  refine ensures_walk_pages under isRecursive
    (fun token left record b' => b' = b ∧ Bucket.namesAfter token names = left ∧ inv left record)
    (pages < names.length + 2) ?_ ?_ ?_ pages _ names record b rfl rfl rfl rfl ?_ ?_ id
  · rintro l _ record b' hunder hrecursive hsize hcancel hopen ⟨rfl, rfl, hrecord⟩
    have hleft : l.namesLeft b' = Bucket.namesAfter l.token names := by
      rw [← hnames]
      unfold namesLeft delimiter
      rw [hunder, hrecursive]
      rfl
    refine ensures_next_serves hopen hleft (hsend _) ⟨rfl, rfl, hrecord⟩ ?_
    rw [hsize, hcancel]
    exact fun failure => hstop _ record failure hrecord
  · rintro token _ record _ size ⟨rfl, rfl, hrecord⟩ hsize
    refine (hvisit _ record size hsize hrecord).mono ?_
    rintro (_ | ⟨fault | _, record'⟩) b' hend
    · exact hend
    · exact hend
    · obtain ⟨rfl, hrecord'⟩ := hend
      have hsorted := Bucket.namesAfter_increasing token (under.getD "")
        (start under isRecursive pageSize cancel).delimiter b'
      rw [hnames] at hsorted
      show match (Chunk.ofNames (Bucket.namesAfter token names) size).next with
        | none => _
        | some token' => _
      cases hnext : (Chunk.ofNames (Bucket.namesAfter token names) size).next with
      | none =>
          refine ⟨rfl, ?_⟩
          rwa [List.drop_eq_nil_of_le (Bucket.take_of_next_none hsize hnext)] at hrecord'
      | some token' =>
          exact ⟨rfl, Bucket.namesAfter_leftOver hsorted hnext, hrecord'⟩
  · rintro hpages record _ (⟨rfl, -⟩ | ⟨token, left, rfl, -⟩)
    · exact hendless hpages
    · exact hendless hpages
  · intro hdone
    cases hdone
  · intro _
    exact ⟨rfl, rfl, hinv⟩

end Unchanged

end Listing

end BucketTree
