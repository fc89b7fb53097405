import BucketTree.Proofs.Contract.Tree
import BucketTree.Proofs.Move.Rename
import BucketTree.Proofs.Tree.Halts
import BucketTree.Proofs.Tree.Queries

/-!
# Walks end

A walk over a listing ends for every sequence of faults, as long as its visits add no new names
(`Listing.ends_walk`): each page takes at least one of the names left. A listing changes nothing,
and the move of a directory writes nothing below its source. So `list` and `rename` take at most two
pages more than there are keys (`Tree.ends_list`, `Tree.ends_rename`).
-/

set_option autoImplicit false

namespace BucketTree

variable {α ρ : Type} {fails : Request → Fault → Prop}

/-- A bucket that serves fewer names has no more names left after a token. -/
theorem Bucket.length_namesAfter_le {under delimiter : String} {b b' : Bucket}
    (h : b'.servedNames under delimiter ⊆ b.servedNames under delimiter) (after : Option String) :
    (namesAfter after (b'.servedNames under delimiter)).length ≤
      (namesAfter after (b.servedNames under delimiter)).length := by
  have hdistinct : (namesAfter after (b'.servedNames under delimiter)).Nodup := by
    refine (namesAfter_increasing after under delimiter b').imp ?_
    rintro x _ hlt rfl
    exact String.lt_irrefl _ hlt
  refine (List.subperm_of_subset hdistinct fun e he => ?_).length_le
  obtain ⟨hserved, hafter⟩ := mem_namesAfter.1 he
  exact mem_namesAfter.2 ⟨h hserved, hafter⟩

namespace Listing

variable {under delimiter : String} {visit : Chunk → Walk ρ Unit}

/-- After a page fewer pages are needed, also when the bucket serves fewer names than before. -/
theorem pagesNeeded_visited {l : Listing} {b b' : Bucket} {size : Nat} (hsize : 1 ≤ size)
    (h : b'.servedNames (l.under.getD "") l.delimiter ⊆
      b.servedNames (l.under.getD "") l.delimiter) :
    pagesNeeded (Chunk.ofNames (l.namesLeft b) size).next.isNone
        (Bucket.namesAfter (Chunk.ofNames (l.namesLeft b) size).next
          (b'.servedNames (l.under.getD "") l.delimiter)) + 1 ≤
      pagesNeeded false (l.namesLeft b) := by
  refine Nat.le_trans (Nat.succ_le_succ ?_) (pagesNeeded_next hsize)
  unfold pagesNeeded
  cases hnext : (Chunk.ofNames (l.namesLeft b) size).next with
  | none => exact Nat.le_refl 1
  | some token =>
      have hsorted := Bucket.namesAfter_increasing l.token (l.under.getD "") l.delimiter b
      have hfewer := Bucket.length_namesAfter_le h (some token)
      rw [Bucket.namesAfter_leftOver hsorted hnext] at hfewer
      exact Nat.add_le_add_right hfewer 2

/-- A walk ends when its visits do and when they add no served names. -/
theorem ends_walk (b₀ : Bucket)
    (hvisit : ∀ chunk record b,
      (∀ key ∈ chunk.keys, (⟨key, false⟩ : ServedName) ∈ b₀.servedNames under delimiter) →
      (visit chunk).Ensures (Bucket.environment fails) (fun _ _ => True) (fun r b' => r ≠ none ∧
        b'.servedNames under delimiter ⊆ b.servedNames under delimiter) record b) :
    ∀ (pages : Nat) (l : Listing) (record : ρ) (b : Bucket),
      l.under.getD "" = under → l.delimiter = delimiter →
      b.servedNames under delimiter ⊆ b₀.servedNames under delimiter →
      pagesNeeded l.isDone (l.namesLeft b) ≤ pages →
      (l.walk visit pages).Ensures (Bucket.environment fails) (fun _ _ => True)
        (fun r _ => r ≠ none) record b := by
  intro pages
  induction pages with
  | zero =>
      intro l record b _ _ _ hpages
      exact absurd (one_le_pagesNeeded _ _) (Nat.not_le.2 (Nat.lt_succ_of_le hpages))
  | succ pages ih =>
      rintro l record b rfl rfl hserves hpages
      refine Walk.ensures_bind (Walk.ensures_ofAction (Action.ensures_lift ?_))
      cases hopen : l.isDone with
      | true =>
          -- a finished listing sends nothing
          unfold next
          rw [hopen]
          exact Option.some_ne_none _
      | false =>
          rw [hopen] at hpages
          refine ensures_next hopen trivial (fun size hsize => ?_) fun _ _ _ _ =>
            Option.some_ne_none _
          have hkeys : ∀ key ∈ (Chunk.ofNames (l.namesLeft b) size).keys,
              (⟨key, false⟩ : ServedName) ∈ b.servedNames (l.under.getD "") l.delimiter :=
            fun key hkey => (Bucket.mem_namesAfter.1 (Bucket.mem_pageOf_keys rfl hkey)).1
          refine Walk.ensures_bind ((hvisit _ record b fun key hkey =>
            hserves (hkeys key hkey)).mono ?_)
          rintro (_ | ⟨fault | _, record'⟩) b' ⟨hended, hfewer⟩
          · exact absurd rfl hended
          · exact Option.some_ne_none _
          · refine ih _ record' b' rfl rfl (List.Subset.trans hfewer hserves) ?_
            exact Nat.le_of_succ_le_succ (Nat.le_trans (pagesNeeded_visited hsize hfewer) hpages)

/-- A new listing needs at most two pages more than there are keys. -/
theorem pagesNeeded_start_le (under : Option String) (isRecursive : Bool) (pageSize : Value)
    (cancel : Option Token) (b : Bucket) :
    pagesNeeded (start under isRecursive pageSize cancel).isDone
      ((start under isRecursive pageSize cancel).namesLeft b) ≤ b.keys.length + 2 :=
  Nat.add_le_add_right (b.length_servedNames_le _ _) 2

end Listing

/-! ## What only asks, and what writes elsewhere -/

namespace Contract

/-- The contract that permits reads only. -/
def reading : Contract := ⟨fun request => request.isReading = true, fun _ _ => True⟩

/-- The contract that permits no writes under a prefix. -/
def avoiding (under : String) : Contract where
  permits
    | .put key _ => ∀ rest, key ≠ under ++ rest
    | .copy _ destination => ∀ rest, destination ≠ under ++ rest
    | _ => True
  trusts _ _ := True

theorem avoiding_permitsReading (under : String) : (avoiding under).PermitsReading := by
  intro request hreading
  cases request with
  | put key upload => cases hreading
  | copy source destination => cases hreading
  | _ => trivial

end Contract

namespace Bucket

variable {request : Request} {b b' : Bucket} {outcome : Except Fault request.Answer}

/-- A read leaves the bucket alone. -/
theorem Answers.eq_of_isReading (h : Answers fails request b outcome b')
    (hreading : request.isReading = true) : b' = b := by
  cases h with
  | put hcontent hstored => cases hreading
  | delete hkey herased => cases hreading
  | copy hkey hstored => cases hreading
  | _ => rfl

/-- A request that writes nothing under a prefix adds no keys under it. -/
theorem Answers.avoiding {under : String} (h : Answers fails request b outcome b')
    (hpermits : (Contract.avoiding under).permits request) (rest : String)
    (hpresent : b'.contents (under ++ rest) ≠ none) : b.contents (under ++ rest) ≠ none := by
  cases h with
  | put hcontent hstored =>
      rwa [hstored, Function.update_of_ne (Ne.symm (hpermits rest))] at hpresent
  | delete hkey herased =>
      rw [herased, Function.update_apply] at hpresent
      split at hpresent
      · exact absurd rfl hpresent
      · exact hpresent
  | copy hkey hstored =>
      rwa [hstored, Function.update_of_ne (Ne.symm (hpermits rest))] at hpresent
  | _ => exact hpresent

end Bucket

/-- An action that only reads leaves the bucket alone. -/
theorem Action.ensures_reading {a : Action α} (hkeeps : a.Keeps .reading fun _ => True)
    (hhalts : a.Halts) {post : Option (Except Fault α) → Bucket → Prop} {b : Bucket}
    (hpost : ∀ r, post (some r) b) :
    a.Ensures (Bucket.environment fails) (fun _ _ => True) post b := by
  have henv : ∀ request (b₁ : Bucket) outcome b₂, Contract.reading.permits request → b = b₁ →
      Bucket.Answers fails request b₁ outcome b₂ →
        b = b₂ ∧ ∀ answer, outcome = .ok answer → Contract.reading.trusts request answer :=
    fun _ _ _ _ hpermits hsame hanswer =>
      ⟨hsame.trans (hanswer.eq_of_isReading hpermits).symm, fun _ _ => trivial⟩
  refine (Program.Ensures.and (Program.Halts.ends hhalts b)
    (Program.Keeps.ensures henv hkeeps rfl)).mono ?_
  rintro (_ | r) _ ⟨hended, rfl, -⟩
  · exact absurd rfl hended
  · exact hpost r

/-- A program that halts and writes nothing under a prefix has a result and adds no keys under
it. -/
theorem Program.Keeps.ends_avoiding {p : Program α} {returns : α → Prop} {under : String}
    {b : Bucket} (h : p.Keeps (.avoiding under) returns) (hhalts : p.Halts) :
    p.Ensures (Bucket.environment fails) (fun _ _ => True) (fun r b' => r ≠ none ∧
      ∀ rest, b'.contents (under ++ rest) ≠ none → b.contents (under ++ rest) ≠ none) b := by
  have henv : ∀ request (b₁ : Bucket) outcome b₂, (Contract.avoiding under).permits request →
      (∀ rest, b₁.contents (under ++ rest) ≠ none → b.contents (under ++ rest) ≠ none) →
      Bucket.Answers fails request b₁ outcome b₂ →
        (∀ rest, b₂.contents (under ++ rest) ≠ none → b.contents (under ++ rest) ≠ none) ∧
          ∀ answer, outcome = .ok answer → (Contract.avoiding under).trusts request answer :=
    fun _ _ _ _ hpermits hfewer hanswer =>
      ⟨fun rest hpresent => hfewer rest (hanswer.avoiding hpermits rest hpresent),
        fun _ _ => trivial⟩
  exact (Program.Ensures.and (hhalts.ends b) (Program.Keeps.ensures henv h fun _ => id)).mono
    fun _ _ hend => ⟨hend.1, hend.2.1⟩

/-! ## Moving a directory -/

namespace Move

variable {source destination : Key} {b : Bucket}

/-- An object below the source is moved to a key that is not below the source. -/
theorem permitsMove_avoiding (hsource : source ≠ Key.root) (hdestination : destination ≠ Key.root)
    {suffix : String} (hapart : Apart suffix source destination) (rest : String) :
    (Contract.avoiding (Key.directoryPrefix source)).PermitsMove
      (Key.directoryPrefix source ++ rest)
      (newKey source destination (Key.directoryPrefix source ++ rest)) := by
  have helsewhere : ∀ other, newKey source destination (Key.directoryPrefix source ++ rest) ≠
      Key.directoryPrefix source ++ other := by
    intro other
    rw [Key.directoryPrefix_eq hsource, newKey_below hsource hdestination]
    exact (hapart.below_ne_below other rest).symm
  exact ⟨helsewhere, fun _ _ => helsewhere, trivial⟩

variable {settings : Settings} {pageLimit : Nat} (cancel : Option Token)

/-- Moving keys from below the source ends, and adds no keys below it. -/
theorem ends_visits (hsource : source ≠ Key.root) (hdestination : destination ≠ Key.root)
    (suffix : String) {keys : List Key}
    (hkeys : ∀ key ∈ keys, Apart suffix source destination ∧
      ∃ rest, key = Key.directoryPrefix source ++ rest)
    (record : List (Key × Key)) (b : Bucket) :
    (keys.forM (visit source destination cancel)).Ensures (Bucket.environment fails)
      (fun _ _ => True) (fun r b' => r ≠ none ∧
        ∀ rest, b'.contents (Key.directoryPrefix source ++ rest) ≠ none →
          b.contents (Key.directoryPrefix source ++ rest) ≠ none) record b := by
  have hvisit : (keys.forM (visit source destination cancel)).Keeps
      (.avoiding (Key.directoryPrefix source)) (fun _ => True) (fun _ => True) := by
    refine Recorded.keeps_forM fun key hkey => ?_
    obtain ⟨hapart, rest, rfl⟩ := hkeys key hkey
    exact keeps_visit (Contract.avoiding_permitsReading _) cancel
      (permitsMove_avoiding hsource hdestination hapart rest)
  exact (hvisit record trivial).ends_avoiding
    (Recorded.halts_forM (halts_visit source destination cancel) keys record)

/-- Moving the contents of a directory takes at most two pages more than there are keys. If nothing
is below the source, it may also lie below the destination. -/
theorem ends_contents (hsource : source ≠ Key.root) (hdestination : destination ≠ Key.root)
    (hmoves : (∀ rest, b.contents (Key.directoryPrefix source ++ rest) = none) ∨
      Apart settings.folderSuffix source destination)
    (hpages : b.keys.length + 2 ≤ pageLimit) :
    (contents settings pageLimit source destination cancel).Ensures (Bucket.environment fails)
      (fun _ _ => True) (fun r _ => r ≠ none) [] b := by
  have hwalk : ((Listing.start (Key.directoryPrefix source) true settings.chunkLength cancel).walk
      (fun chunk => chunk.keys.forM (visit source destination cancel)) pageLimit).Ensures
        (Bucket.environment fails) (fun _ _ => True) (fun r _ => r ≠ none) [] b := by
    refine Listing.ends_walk b ?_ pageLimit _ [] b rfl rfl (List.Subset.refl _)
      (Nat.le_trans (Listing.pagesNeeded_start_le _ _ _ _ b) hpages)
    intro chunk record b₁ hserved
    refine (ends_visits cancel hsource hdestination settings.folderSuffix (fun key hkey => ?_)
      record b₁).mono ?_
    · obtain ⟨_, hpresent, hrepresents⟩ := Bucket.mem_servedNames.1 (hserved key hkey)
      cases hrepresents with
      | key rest =>
          exact ⟨hmoves.resolve_left fun hnone => hpresent (hnone rest), rest, rfl⟩
    · rintro r b₂ ⟨hended, hfewer⟩
      refine ⟨hended, fun e he => ?_⟩
      obtain ⟨key, hpresent, hrepresents⟩ := Bucket.mem_servedNames.1 he
      obtain ⟨rest, rfl⟩ := hrepresents.beginsWith
      exact Bucket.mem_servedNames.2 ⟨_, hfewer rest hpresent, hrepresents⟩
  have hmarker : Recorded.Halts (do
      Walk.ofAction (Action.checkCancelled cancel (context source))
      markerStep settings.folderSuffix source destination : Walk (List (Key × Key)) Unit) :=
    (Recorded.halts_ofAction (Action.halts_checkCancelled _ _)).bind fun _ =>
      halts_markerStep source destination _
  refine Walk.ensures_bind (hwalk.mono ?_)
  rintro (_ | ⟨fault | _, pairs⟩) b₁ hended
  · exact hended
  · exact Option.some_ne_none _
  · exact (hmarker pairs).ends b₁

theorem ends_directory (hsource : source ≠ Key.root) (hdestination : destination ≠ Key.root)
    (hmoves : (∀ rest, b.contents (Key.directoryPrefix source ++ rest) = none) ∨
      Apart settings.folderSuffix source destination)
    (hpages : b.keys.length + 2 ≤ pageLimit) :
    (directory settings pageLimit source destination cancel).Ensures (Bucket.environment fails)
      (fun _ _ => True) (fun r _ => r ≠ none) b := by
  refine Action.ensures_bind (Walk.ensures_collect
    ((ends_contents cancel hsource hdestination hmoves hpages).mono ?_))
  rintro (_ | ⟨fault | _, pairs⟩) b₁ hended
  · exact absurd rfl hended
  · -- what is told of a fault depends on how far the move has come
    dsimp only [Option.map_some]
    split
    · exact Option.some_ne_none _
    · split
      · exact Option.some_ne_none _
      · exact Option.some_ne_none _
    · exact Option.some_ne_none _
  · exact Option.some_ne_none _

end Move

/-! ## Whole requests -/

namespace Tree

variable {b : Bucket} (t : Tree)

/-- The operation `list` has an outcome, if the page limit exceeds the number of keys by at least
two. -/
theorem ends_list (path : Value) (isRecursive : Bool) (cancel : Option Token)
    (hpages : b.keys.length + 2 ≤ t.pageLimit) :
    (t.list path isRecursive cancel).Ensures (Bucket.environment fails) (fun _ _ => True)
      (fun r _ => r ≠ none) b := by
  refine Action.ensures_bind (ensures_key ?_)
  cases hkey : t.resolve path with
  | error fault => exact Option.some_ne_none _
  | ok key =>
  have hwalk : ∀ add : Chunk → List DirectoryEntry → List DirectoryEntry,
      ((Listing.start (Key.directoryPrefix key) isRecursive t.settings.chunkLength cancel).walk
        (fun chunk => modify (add chunk)) t.pageLimit).Ensures (Bucket.environment fails)
          (fun _ _ => True) (fun r _ => r ≠ none) [] b := fun add =>
    Listing.ends_walk b
      (fun _ _ _ _ => Walk.ensures_modify ⟨Option.some_ne_none _, List.Subset.refl _⟩) t.pageLimit _
      [] b rfl rfl (List.Subset.refl _)
      (Nat.le_trans (Listing.pagesNeeded_start_le _ _ _ _ b) hpages)
  refine Action.ensures_bind (Action.ensures_bind (ensures_key ?_))
  rw [hkey]
  refine Action.ensures_bind (Walk.ensures_collect ((hwalk _).mono ?_))
  rintro (_ | ⟨fault | _, entries⟩) b₁ hended
  · exact absurd rfl hended
  · exact Option.some_ne_none _
  · refine Program.Halts.ends (p := ExceptT.run _) ?_ b₁
    dsimp only
    split
    · exact (Directory.halts_markerStatus t.suffix key).bind fun marker => by
        split
        · exact Action.halts_throw_bind _ _
        · exact Action.halts_pure _
    · exact Action.halts_pure _

/-- Without `overwrite`, a destination that is not taken has no keys below it. -/
theorem ensures_isTaken_reading {path : Value} {key : Key} (hresolve : t.resolve path = .ok key)
    (hroot : key ≠ Key.root) {post : Option (Except Fault Bool) → Bucket → Prop}
    (htaken : post (some (.ok true)) b)
    (hfree : (∀ rest, b.contents (Key.directoryPrefix key ++ rest) = none) →
      post (some (.ok false)) b)
    (hfail : ∀ fault, post (some (.error fault)) b) :
    (t.isTaken path false).Ensures (Bucket.environment fails) (fun _ _ => True) post b := by
  have hread : Contract.reading.PermitsReading := fun _ h => h
  refine Action.ensures_bind (Action.ensures_reading (keeps_isFile hread t path)
    (t.halts_isFile path) ?_)
  rintro (fault | _ | _)
  · exact hfail fault
  · refine Action.ensures_bind (ensures_key ?_)
    rw [hresolve]
    show Action.Ensures _ _ _ (if key == Key.root then _ else _) b
    rw [if_neg fun h => hroot (eq_of_beq h)]
    refine Action.ensures_bind (Action.ensures_reading
      (Directory.keeps_markerStatus hread t.suffix key)
      (Directory.halts_markerStatus t.suffix key) ?_)
    rintro (fault | marker)
    · exact hfail fault
    · dsimp only
      split
      · exact htaken
      · exact Directory.ensures_hasChildren (fun _ _ => trivial) (fun _ => htaken) hfree
          fun failure _ _ => hfail (.known failure)
  · exact htaken

/-- The operation `rename` has an outcome, if the page limit exceeds the number of keys by at least
two. -/
theorem ends_rename (source destination : Value) (cancel : Option Token) (overwrite : Bool)
    (hpages : b.keys.length + 2 ≤ t.pageLimit) :
    (t.rename source destination cancel overwrite).Ensures (Bucket.environment fails)
      (fun _ _ => True) (fun r _ => r ≠ none) b := by
  have hread : Contract.reading.PermitsReading := fun _ h => h
  refine Action.ensures_bind (ensures_key ?_)
  cases hsource : t.resolve source with
  | error fault => exact Option.some_ne_none _
  | ok sourceKey =>
  refine Action.ensures_bind (ensures_key ?_)
  cases hdestination : t.resolve destination with
  | error fault => exact Option.some_ne_none _
  | ok destinationKey =>
  refine Action.ensures_bind (Action.ensures_ofPath ?_ fun _ _ => Option.some_ne_none _)
  intro _ hchecked
  obtain ⟨hsourceRoot, hdestinationRoot, hne, hbelow⟩ := checkEnds_eq_ok hchecked
  refine Action.ensures_bind (Action.ensures_reading (keeps_statusOf hread sourceKey)
    (halts_statusOf sourceKey) ?_)
  rintro (fault | _ | object)
  · exact Option.some_ne_none _
  · -- the source is no file that is known of, so nothing may be replaced
    dsimp only
    rw [Option.isSome_none, Bool.and_false]
    refine Action.ensures_bind (t.ensures_isTaken_reading hdestination hdestinationRoot
      (Option.some_ne_none _) (fun hfree => ?_) fun _ => Option.some_ne_none _)
    refine Action.ensures_bind (Action.ensures_reading
      (Directory.keeps_exists? hread t.suffix sourceKey)
      (Directory.halts_exists? t.suffix sourceKey) ?_)
    rintro (fault | _ | _)
    · exact Option.some_ne_none _
    · exact Option.some_ne_none _
    · refine Move.ends_directory cancel hsourceRoot hdestinationRoot ?_ hpages
      by_cases habove : ∃ rest, sourceKey = destinationKey ++ "/" ++ rest
      · -- what lies below the source would lie below the destination, where nothing is
        obtain ⟨middle, rfl⟩ := habove
        refine Or.inl fun rest => ?_
        have hnone := hfree (middle ++ "/" ++ rest)
        rw [Key.directoryPrefix_eq hdestinationRoot] at hnone
        rw [Key.directoryPrefix_eq hsourceRoot]
        simpa only [String.append_assoc] using hnone
      · exact Or.inr ⟨hne, hbelow, fun rest heq => habove ⟨rest, heq⟩,
          t.settings.separator_not_mem⟩
  · refine Action.ensures_bind (Action.ensures_reading (keeps_isTaken hread t destination _)
      ((t.halts_isFile destination).bind fun isFile => ?_) ?_)
    · split
      · exact Action.halts_pure _
      · exact t.halts_isDirectory destination
    · rintro (fault | _ | _)
      · exact Option.some_ne_none _
      · exact Program.Halts.ends (Move.halts_file sourceKey destinationKey) b
      · exact Option.some_ne_none _

end Tree

end BucketTree
