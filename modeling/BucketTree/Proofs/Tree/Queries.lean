import BucketTree.Proofs.Tree.Listing
import BucketTree.Proofs.Tree.Paths

/-!
# Queries for objects and directories

The lookup of a status tells whether an object exists, and that of a directory whether its marker or
some key below it does (`Directory.IsAt`). A query may also fail, by a failure that is no absence,
and only where one of its requests may fail (`QueryMayFail`).
-/

set_option autoImplicit false

namespace BucketTree

/-- The requests of a query: `head` and `list`. -/
def Request.isQuery : Request → Prop
  | .head _ => True
  | .list _ => True
  | _ => False

/-- The failures of a query: a failed lookup of a status, a failure of a listing, and a
cancellation. -/
def IsQueryFailure (failure : Failure) : Prop :=
  failure.kind = .statusQuery ∨ Listing.IsFailure failure

/-- The failure of a query is no absence. -/
theorem IsQueryFailure.isNotFound_eq_false {failure : Failure} (h : IsQueryFailure failure) :
    failure.isNotFound = false := by
  obtain ⟨kind, key, cause⟩ := failure
  rcases h with h | h | h <;> cases h <;> rfl

/-- A query may fail: some `head` or some page may fail, or it has a token. -/
def QueryMayFail (fails : Request → Fault → Prop) (pageSize : Value) (cancel : Option Token) :
    Prop :=
  (∃ key fault, fails (.head key) fault) ∨ Listing.MayBreak fails pageSize cancel

/-- The status of an object. -/
def StoredObject.status (object : StoredObject) : ObjectStatus :=
  ⟨object.content.length, epochMillis (⟨object.modified, some 0⟩ : Moment).epochMicros⟩

section Rules

variable {fails : Request → Fault → Prop} {sends : Request → Bucket → Prop} {b : Bucket}

theorem ensures_statusOf (hloud : Loud fails) {key : Key}
    {post : Option (Except Fault (Option ObjectStatus)) → Bucket → Prop}
    (hsend : sends (.head key) b)
    (hpresent : ∀ object, b.find? key = some object → post (some (.ok (some object.status))) b)
    (habsent : b.find? key = none → post (some (.ok none)) b)
    (hfail : ∀ failure, failure.kind = .statusQuery → (∃ fault, fails (.head key) fault) →
      post (some (.error (.known failure))) b) :
    (statusOf key).Ensures (Bucket.environment fails) sends post b := by
  refine Action.ensures_bind (Action.ensures_request hsend ?_)
  intro outcome b' hanswer
  cases hanswer with
  | failed hfault =>
      show Action.Ensures _ _ _ (if (Fault.toFailure _ _ _).isNotFound then _ else _) b
      rw [Fault.toFailure_isNotFound, hloud _ _ hfault, if_neg Bool.false_ne_true]
      exact Action.ensures_fail (hfail _ rfl ⟨_, hfault⟩)
  | absent hneeds hkey =>
      cases hneeds
      exact Action.ensures_pure (habsent hkey)
  | head hkey => exact Action.ensures_pure (hpresent _ hkey)

section Traced

variable {token : Token} {isSet : List Request → Bool} {w : Traced Bucket}
  {allowed : Request → Traced Bucket → Prop}

/-- The lookup of a status sends one `head` request, when that does not fail. -/
theorem ensures_statusOf_traced {key : Key}
    {post : Option (Except Fault (Option ObjectStatus)) → Traced Bucket → Prop}
    (hserved : ∀ fault, ¬ fails (.head key) fault) (hsend : allowed (.head key) w)
    (h : post (some (.ok ((w.state.find? key).map StoredObject.status)))
      ⟨w.state, w.sent ++ [.head key]⟩) :
    (statusOf key).Ensures ((Bucket.environment fails).traced token isSet) allowed post w := by
  refine Action.ensures_bind (Action.ensures_request hsend ?_)
  rintro outcome ⟨b', sent⟩ ⟨hanswer, rfl⟩
  cases hanswer with
  | failed hfault => exact absurd hfault (hserved _)
  | absent hneeds hkey =>
      cases hneeds
      rw [hkey] at h
      exact Action.ensures_pure h
  | head hkey =>
      rw [hkey] at h
      exact Action.ensures_pure h

end Traced

namespace Directory

/-- A directory exists at the key: the key is the root, its marker exists, or some key below it
does. -/
def IsAt (suffix : String) (key : Key) (contents : Contents) : Prop :=
  key = Key.root ∨ contents (key ++ suffix) ≠ none ∨
    ∃ rest, contents (Key.directoryPrefix key ++ rest) ≠ none

theorem ensures_markerStatus (hloud : Loud fails) {suffix : String} {key : Key}
    (hkey : key ≠ Key.root) {post : Option (Except Fault (Option ObjectStatus)) → Bucket → Prop}
    (hask : ∀ q : Request, q.isQuery → sends q b)
    (hpresent : ∀ object, b.find? (key ++ suffix) = some object →
      post (some (.ok (some object.status))) b)
    (habsent : b.find? (key ++ suffix) = none → post (some (.ok none)) b)
    (hfail : ∀ failure, failure.kind = .statusQuery →
      (∃ fault, fails (.head (key ++ suffix)) fault) → post (some (.error (.known failure))) b) :
    (markerStatus suffix key).Ensures (Bucket.environment fails) sends post b := by
  unfold markerStatus
  rw [if_neg fun h => hkey (eq_of_beq h), Key.marker_eq hkey]
  exact ensures_statusOf hloud (hask _ trivial) hpresent habsent hfail

/-- The lookup of a marker sends one `head` request, when that does not fail. -/
theorem ensures_markerStatus_traced {token : Token} {isSet : List Request → Bool}
    {w : Traced Bucket} {allowed : Request → Traced Bucket → Prop} {suffix : String} {key : Key}
    {post : Option (Except Fault (Option ObjectStatus)) → Traced Bucket → Prop}
    (hkey : key ≠ Key.root) (hserved : ∀ fault, ¬ fails (.head (key ++ suffix)) fault)
    (hsend : allowed (.head (key ++ suffix)) w)
    (h : post (some (.ok ((w.state.find? (key ++ suffix)).map StoredObject.status)))
      ⟨w.state, w.sent ++ [.head (key ++ suffix)]⟩) :
    (markerStatus suffix key).Ensures ((Bucket.environment fails).traced token isSet) allowed
      post w := by
  unfold markerStatus
  rw [if_neg fun h => hkey (eq_of_beq h), Key.marker_eq hkey]
  exact ensures_statusOf_traced hserved hsend h

/-- A chunk is empty exactly when no names are left. -/
theorem isEmpty_ofNames (names : List ServedName) {size : Nat} (hsize : 1 ≤ size) :
    ((Chunk.ofNames names size).keys.isEmpty && (Chunk.ofNames names size).groups.isEmpty) =
      names.isEmpty := by
  cases names with
  | nil => simp [Chunk.ofNames]
  | cons e rest =>
      obtain ⟨n, rfl⟩ := Nat.exists_eq_add_of_le' hsize
      cases hgroup : e.isGroup <;> simp [Chunk.ofNames, hgroup]

/-- No name is served under a prefix exactly when no key has it. -/
theorem servedNames_isEmpty {under delimiter : String} :
    (b.servedNames under delimiter).isEmpty = true ↔ ∀ rest, b.contents (under ++ rest) = none := by
  rw [List.isEmpty_iff, List.eq_nil_iff_forall_not_mem]
  constructor
  · intro hnames rest
    by_contra hpresent
    exact hnames _ (Bucket.mem_servedNames.2
      ⟨_, hpresent, ServedName.represents_ofKey under delimiter rest⟩)
  · intro hkeys e he
    obtain ⟨key, hpresent, hrepresents⟩ := Bucket.mem_servedNames.1 he
    obtain ⟨rest, rfl⟩ := hrepresents.beginsWith
    exact hpresent (hkeys rest)

/-- The operation `hasChildren` is true when a listing of one level serves some name. -/
theorem ensures_hasChildren_serves {σ : Type} {env : Environment σ} {allowed : Request → σ → Prop}
    {key : Key} {cancel : Option Token} {post : Option (Except Fault Bool) → σ → Prop}
    {served : σ → Prop} {failed : Fault → σ → Prop} {s : σ}
    (hnext : (Listing.start (Key.directoryPrefix key) false (.int 1) cancel).next.Ensures env
      allowed (Listing.Serves (Listing.start (Key.directoryPrefix key) false (.int 1) cancel)
        (b.servedNames (Key.directoryPrefix key) Key.separatorText) served failed) s)
    (hyes : (∃ rest, b.contents (Key.directoryPrefix key ++ rest) ≠ none) →
      ∀ s, served s → post (some (.ok true)) s)
    (hno : (∀ rest, b.contents (Key.directoryPrefix key ++ rest) = none) →
      ∀ s, served s → post (some (.ok false)) s)
    (hfail : ∀ fault s, failed fault s → post (some (.error fault)) s) :
    (hasChildren key cancel).Ensures env allowed post s := by
  refine Action.ensures_bind (Action.ensures_bind (Action.ensures_lift (hnext.mono ?_)))
  rintro (_ | ⟨fault | _ | chunk, l'⟩) s' hserved
  · exact hserved.elim
  · exact hfail fault s' hserved
  · exact hserved.elim
  · obtain ⟨size, hsize, rfl, -, hserved⟩ := hserved
    have hchunk := isEmpty_ofNames (b.servedNames (Key.directoryPrefix key) Key.separatorText) hsize
    refine (congrArg (fun isEmpty => post (some (.ok !isEmpty)) s') hchunk).mpr ?_
    cases hempty : (b.servedNames (Key.directoryPrefix key) Key.separatorText).isEmpty with
    | true => exact hno (servedNames_isEmpty.1 hempty) s' hserved
    | false =>
        -- some name is served, so not all keys below are free
        refine hyes ?_ s' hserved
        by_contra hnone
        have hall : ∀ rest, b.contents (Key.directoryPrefix key ++ rest) = none := by
          intro rest
          by_contra hpresent
          exact hnone ⟨rest, hpresent⟩
        rw [servedNames_isEmpty.2 hall] at hempty
        cases hempty

theorem ensures_hasChildren {key : Key} {cancel : Option Token}
    {post : Option (Except Fault Bool) → Bucket → Prop}
    (hask : ∀ q : Request, q.isQuery → sends q b)
    (hyes : (∃ rest, b.contents (Key.directoryPrefix key ++ rest) ≠ none) →
      post (some (.ok true)) b)
    (hno : (∀ rest, b.contents (Key.directoryPrefix key ++ rest) = none) →
      post (some (.ok false)) b)
    (hfail : ∀ failure, Listing.IsFailure failure → Listing.MayBreak fails (.int 1) cancel →
      post (some (.error (.known failure))) b) :
    (hasChildren key cancel).Ensures (Bucket.environment fails) sends post b := by
  have hnext : (Listing.start (Key.directoryPrefix key) false (.int 1) cancel).next.Ensures
      (Bucket.environment fails) sends
      (Listing.Serves (Listing.start (Key.directoryPrefix key) false (.int 1) cancel)
        (b.servedNames (Key.directoryPrefix key) Key.separatorText) (fun b' => b' = b)
        fun fault b' => post (some (.error fault)) b') b :=
    Listing.ensures_next_serves rfl rfl (hask _ trivial) rfl hfail
  refine ensures_hasChildren_serves hnext ?_ ?_ fun _ _ h => h
  · rintro hbelow _ rfl
    exact hyes hbelow
  · rintro hbelow _ rfl
    exact hno hbelow

theorem ensures_exists? (hloud : Loud fails) {suffix : String} {key : Key}
    {post : Option (Except Fault Bool) → Bucket → Prop}
    (hask : ∀ q : Request, q.isQuery → sends q b)
    (hyes : IsAt suffix key b.contents → post (some (.ok true)) b)
    (hno : ¬ IsAt suffix key b.contents → post (some (.ok false)) b)
    (hfail : ∀ failure, IsQueryFailure failure → QueryMayFail fails (.int 1) none →
      post (some (.error (.known failure))) b) :
    (exists? suffix key).Ensures (Bucket.environment fails) sends post b := by
  unfold exists?
  by_cases hroot : key = Key.root
  · rw [if_pos (beq_iff_eq.2 hroot)]
    exact Action.ensures_pure (hyes (Or.inl hroot))
  · rw [if_neg (fun h => hroot (eq_of_beq h))]
    refine Action.ensures_bind (ensures_markerStatus hloud hroot hask ?_ ?_ ?_)
    · intro object hmarker
      refine hyes (Or.inr (Or.inl ?_))
      rw [Bucket.contents_of_find? hmarker]
      exact Option.some_ne_none _
    · intro hmarker
      apply ensures_hasChildren hask
      · intro hbelow
        exact hyes (Or.inr (Or.inr hbelow))
      · intro hbelow
        apply hno
        rintro (h | h | ⟨rest, h⟩)
        · exact hroot h
        · exact h (Bucket.contents_eq_none.2 hmarker)
        · exact h (hbelow rest)
      · intro failure hfailure hbreak
        exact hfail failure (Or.inr hfailure) (Or.inr hbreak)
    · intro failure hkind hfault
      exact hfail failure (Or.inl hkind) (Or.inl ⟨_, hfault⟩)

/-- The operation `Directory.exists?` asks for the marker first. -/
theorem ensures_exists?_asks {token : Token} {isSet : List Request → Bool} {w : Traced Bucket}
    {suffix : String} {key : Key} (hkey : key ≠ Key.root)
    (hserved : ∀ fault, ¬ fails (.head (key ++ suffix)) fault) :
    (exists? suffix key).Ensures ((Bucket.environment fails).traced token isSet) (fun _ _ => True)
      (fun _ w' => w.sent ++ [.head (key ++ suffix)] <+: w'.sent) w := by
  unfold exists?
  rw [if_neg fun h => hkey (eq_of_beq h)]
  refine Action.ensures_bind (ensures_markerStatus_traced hkey hserved trivial ?_)
  exact Program.Ensures.mono (Program.ensures_extends _ _) fun _ _ hextends => hextends

end Directory

namespace Tree

variable {t : Tree} {path : Value} {key : Key}

theorem ensures_key {σ : Type} {env : Environment σ} {allowed : Request → σ → Prop}
    {post : Option (Except Fault Key) → σ → Prop} {s : σ} (h : post (some (t.resolve path)) s) :
    (t.key path).Ensures env allowed post s :=
  Action.ensures_ofExcept h

/-- The operation `isFile` sends one `head` request and is true when an object is at the key. -/
theorem ensures_isFile_of_head (hloud : Loud fails)
    {post : Option (Except Fault Bool) → Bucket → Prop} (hresolve : t.resolve path = .ok key)
    (hroot : key ≠ Key.root) (hsend : sends (.head key) b)
    (hyes : b.contents key ≠ none → post (some (.ok true)) b)
    (hno : b.contents key = none → post (some (.ok false)) b)
    (hfail : ∀ failure, failure.kind = .statusQuery → (∃ fault, fails (.head key) fault) →
      post (some (.error (.known failure))) b) :
    (t.isFile path).Ensures (Bucket.environment fails) sends post b := by
  refine Action.ensures_bind (ensures_key ?_)
  rw [hresolve]
  show Action.Ensures _ _ _ (if key == Key.root then _ else _) b
  rw [if_neg fun h => hroot (eq_of_beq h)]
  refine Action.ensures_bind (ensures_statusOf hloud hsend ?_ ?_ hfail)
  · intro object hobject
    apply hyes
    rw [Bucket.contents_of_find? hobject]
    exact Option.some_ne_none _
  · intro hobject
    exact hno (Bucket.contents_eq_none.2 hobject)

theorem ensures_isFile (hloud : Loud fails) {post : Option (Except Fault Bool) → Bucket → Prop}
    (hresolve : t.resolve path = .ok key) (hroot : key ≠ Key.root)
    (hask : ∀ q : Request, q.isQuery → sends q b)
    (hyes : b.contents key ≠ none → post (some (.ok true)) b)
    (hno : b.contents key = none → post (some (.ok false)) b)
    (hfail : ∀ failure, IsQueryFailure failure → QueryMayFail fails (.int 1) none →
      post (some (.error (.known failure))) b) :
    (t.isFile path).Ensures (Bucket.environment fails) sends post b :=
  ensures_isFile_of_head hloud hresolve hroot (hask _ trivial) hyes hno
    fun failure hkind hfault => hfail failure (Or.inl hkind) (Or.inl ⟨key, hfault⟩)

/-- The operation `isDirectory` is true when a directory exists at the key. -/
theorem ensures_isDirectory (hloud : Loud fails)
    {post : Option (Except Fault Bool) → Bucket → Prop} (hresolve : t.resolve path = .ok key)
    (hask : ∀ q : Request, q.isQuery → sends q b)
    (hyes : Directory.IsAt t.suffix key b.contents → post (some (.ok true)) b)
    (hno : ¬ Directory.IsAt t.suffix key b.contents → post (some (.ok false)) b)
    (hfail : ∀ failure, IsQueryFailure failure → QueryMayFail fails (.int 1) none →
      post (some (.error (.known failure))) b) :
    (t.isDirectory path).Ensures (Bucket.environment fails) sends post b := by
  refine Action.ensures_bind (ensures_key ?_)
  rw [hresolve]
  exact Directory.ensures_exists? hloud hask hyes hno hfail

/-! ## A small tree -/

/-- A tree whose listings have one key on each page, with small limits for pages and nested
calls. -/
def keyByKey : Tree where
  bucket := "b"
  settings := { Settings.default with chunkLength := .int 1, chunkLength_not_below := rfl }
  isOpen := true
  pageLimit := 8
  nestingLimit := 8

/-- A directory with a marker and three objects below it, two of which no path names, and an object
beside it. -/
def shelf : Memory :=
  .ofObjects "b" [("s/", [0]), ("s//b", [1]), ("s/a", [2]), ("s_$folder$", []), ("st", [3])]

end Tree

end Rules

end BucketTree
