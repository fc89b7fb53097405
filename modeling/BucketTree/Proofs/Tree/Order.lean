import BucketTree.Proofs.Store.ListingSession
import BucketTree.Proofs.Tree.Existence
import BucketTree.Proofs.Tree.Overtaking

/-!
# Listings in store order

In memory, a listing of one level takes its names page by page, and each page gives the groups
before the keys (`Listing.perform_walk`). So its entries come in store order exactly when no group
overtakes a key on a page. The chunk length decides where the pages end: with pages of one name no
group overtakes a key, and with longer pages the same entries may come in another order
(`Tree.list_order_iff`).
-/

set_option autoImplicit false

namespace BucketTree

namespace Listing

variable {l : Listing} {n : Int}

/-- In memory, an open listing gets a chunk of the first names left. -/
theorem run_next (hopen : l.isDone = false) (hcancel : l.cancel = none)
    (hsize : l.pageSize = .int n) (hn : 1 ≤ n) (name : String) (m : Memory) :
    ∃ m', m'.bucket name = m.bucket name ∧ l.next.run (Memory.backend name) m =
      (some (.ok (some (Chunk.ofNames (l.namesLeft (m.bucket name)) (pageLength n))),
        l.advance (Chunk.ofNames (l.namesLeft (m.bucket name)) (pageLength n))), m') := by
  refine ⟨{ m with count := { m.count with list := m.count.list + 1 } }, rfl, ?_⟩
  have hanswer : (Memory.backend name).answer (.list l.pageRequest) m =
      (.ok (some ((m.bucket name).page l.pageRequest (pageLength n))),
        { m with count := { m.count with list := m.count.list + 1 } }) :=
    Memory.list_int hn hsize m
  have hpage : (Program.list l.pageRequest).run (Memory.backend name) m =
      (some ((Memory.backend name).answer (.list l.pageRequest) m).1,
        ((Memory.backend name).answer (.list l.pageRequest) m).2) := rfl
  -- there is no token to look at, so the request is all there is
  unfold next
  rw [hopen, hcancel]
  show (Program.list l.pageRequest >>= _).run (Memory.backend name) m = _
  rw [Program.run_bind, hpage, hanswer]
  dsimp only
  rw [chunkOf_page, advance, hcancel]
  rfl

/-- After a page with a token, the names left are those that it left over. -/
theorem namesLeft_advance {b : Bucket} {size : Nat} {token : String}
    (hnext : (Chunk.ofNames (l.namesLeft b) size).next = some token) :
    (l.advance (Chunk.ofNames (l.namesLeft b) size)).namesLeft b = (l.namesLeft b).drop size := by
  have hsorted := Bucket.namesAfter_increasing l.token (l.under.getD "") l.delimiter b
  have hleft := Bucket.namesAfter_leftOver hsorted hnext
  rw [← hnext] at hleft
  exact hleft

/-- A finished listing visits no further chunk. -/
theorem perform_walk_done {σ ρ : Type} {backend : Backend σ} {visit : Chunk → Walk ρ Unit}
    (hdone : l.isDone = true) (pages : Nat) (record : ρ) (s : σ) :
    (l.walk visit (pages + 1)).perform backend record s = (some (.ok (), record), s) := by
  rw [walk, Walk.run_bind, Walk.run_ofAction, Action.run_lift, next, if_pos hdone]
  rfl

/-- A walk over the names of one level collects their entries page by page, on each page those of
the groups first. -/
theorem perform_walk (name suffix under : String) (hn : 1 ≤ n) (pages : Nat) :
    ∀ (l : Listing) (m : Memory) (entries : List DirectoryEntry),
      l.isDone = false → l.cancel = none → l.pageSize = .int n →
      (l.namesLeft (m.bucket name)).length + 2 ≤ pages →
      ((l.walk (fun chunk => modify fun entries => (DirectoryEntry.ofChunk suffix under false
        chunk).foldl DirectoryEntry.addNew entries) pages).perform (Memory.backend name) entries
          m).1 = some (.ok (),
        (DirectoryEntry.shown suffix under (DirectoryEntry.pageOrder (pageLength n)
          (l.namesLeft (m.bucket name)))).foldl DirectoryEntry.addNew entries) := by
  have hlength := one_le_pageLength hn
  induction pages with
  | zero => exact fun _ _ _ _ _ _ hpages => absurd hpages (by omega)
  | succ pages ih =>
      intro l m entries hopen hcancel hsize hpages
      -- a page takes its names off those that are left, and the rest goes on from its token
      obtain ⟨m', hbucket, hnext⟩ := run_next hopen hcancel hsize hn name m
      rw [walk, Walk.run_bind, Walk.run_ofAction, Action.run_lift, hnext]
      dsimp only [Option.map_some]
      rw [Walk.run_bind, Walk.run_modify]
      dsimp only
      rw [DirectoryEntry.ofChunk_level, DirectoryEntry.pageOrder_eq hlength,
        DirectoryEntry.shown_append, List.foldl_append]
      cases htoken : (Chunk.ofNames (l.namesLeft (m.bucket name)) (pageLength n)).next with
      | none =>
          have hall := Bucket.take_of_next_none hlength htoken
          have hdone : (l.advance
              (Chunk.ofNames (l.namesLeft (m.bucket name)) (pageLength n))).isDone = true := by
            rw [advance, htoken]
            rfl
          -- one more look finds the listing finished
          obtain ⟨rest, rfl⟩ := Nat.exists_eq_add_of_le' (show 1 ≤ pages by omega)
          rw [perform_walk_done hdone, List.drop_eq_nil_of_le hall, DirectoryEntry.pageOrder_nil]
          rfl
      | some token =>
          have hleft := namesLeft_advance htoken
          have hmore := Chunk.lt_of_next htoken
          have hopen' : (l.advance
              (Chunk.ofNames (l.namesLeft (m.bucket name)) (pageLength n))).isDone = false := by
            rw [advance, htoken]
            rfl
          have hrest := ih (l.advance (Chunk.ofNames (l.namesLeft (m.bucket name)) (pageLength n)))
            m' ((DirectoryEntry.shown suffix under (DirectoryEntry.groupsFirst
              ((l.namesLeft (m.bucket name)).take (pageLength n)))).foldl
                DirectoryEntry.addNew entries) hopen' hcancel hsize
          rw [hbucket, hleft, List.length_drop] at hrest
          exact hrest (by omega)

end Listing

namespace Tree

variable {t : Tree} {path : Value} {key : Key} {m : Memory} {n : Int}

/-- The tree with another chunk length. -/
def withChunkLength (t : Tree) (n : Int) (hn : 1 ≤ n) : Tree :=
  { t with
    settings :=
      { t.settings with
        chunkLength := .int n
        chunkLength_not_below := by
          rw [Value.isBelow_int, decide_eq_false (Int.not_lt.2 hn)] } }

/-- The outcome of a listing of one level in memory. -/
def listLevel (t : Tree) (path : Value) (m : Memory) :
    Option (Except Fault (List DirectoryEntry)) :=
  ((t.list path false none).perform (Memory.backend t.bucket) m).1

/-- The names served to a listing of one level. -/
def namesAt (t : Tree) (key : Key) (m : Memory) : List ServedName :=
  (m.bucket t.bucket).servedNames (Key.directoryPrefix key) Key.separatorText

/-- The entries come in the order of the served names of the directory. -/
def InStoreOrder (t : Tree) (key : Key) (m : Memory) (entries : List DirectoryEntry) : Prop :=
  DirectoryEntry.InStoreOrder t.suffix (Key.directoryPrefix key) (t.namesAt key m) entries

/-- In a listing of the directory with the chunk length `n`, a group overtakes a key. -/
def Overtakes (t : Tree) (key : Key) (m : Memory) (n : Int) : Prop :=
  DirectoryEntry.Overtakes t.suffix (Key.directoryPrefix key) (pageLength n) [] (t.namesAt key m)

/-- A listing that has collected entries returns them; without any, it ends with the outcome of
looking up the marker. -/
theorem perform_list {σ : Type} {backend : Backend σ} {s s' : σ} {isRecursive : Bool}
    {cancel : Option Token} {entries collected : List DirectoryEntry}
    (hresolve : t.resolve path = .ok key)
    (hwalk : ((Listing.start (Key.directoryPrefix key) isRecursive t.settings.chunkLength
      cancel).walk (fun chunk => modify fun entries => (DirectoryEntry.ofChunk t.suffix
        (Key.directoryPrefix key) isRecursive chunk).foldl DirectoryEntry.addNew entries)
          t.pageLimit).perform backend [] s = (some (.ok (), collected), s'))
    (hlisted : ((t.list path isRecursive cancel).perform backend s).1 = some (.ok entries)) :
    entries = collected := by
  have hkey : t.key path = pure key := congrArg Action.ofExcept hresolve
  unfold list listing at hlisted
  rw [hkey, pure_bind, pure_bind, pure_bind] at hlisted
  rw [Walk.collect, Action.run_bind, Action.run_lift] at hlisted
  rw [Walk.perform] at hwalk
  rw [hwalk] at hlisted
  dsimp only [Option.map_some] at hlisted
  -- without entries the marker decides, and the entries are returned all the same
  split at hlisted
  · rw [Action.run_bind] at hlisted
    split at hlisted
    next status _ _ =>
      cases status with
      | none => cases hlisted
      | some _ =>
          cases hlisted
          rfl
    next => cases hlisted
    next => cases hlisted
  · cases hlisted
    rfl

/-- In memory, the entries of a listing of one level are those of its names in page order, without
repetitions. -/
theorem list_pages (hresolve : t.resolve path = .ok key) (hchunk : t.settings.chunkLength = .int n)
    (hpages : (m.bucket t.bucket).keys.length + 2 ≤ t.pageLimit) {entries : List DirectoryEntry}
    (hlisted : t.listLevel path m = some (.ok entries)) :
    entries = DirectoryEntry.unseen [] (DirectoryEntry.shown t.suffix (Key.directoryPrefix key)
      (DirectoryEntry.pageOrder (pageLength n) (t.namesAt key m))) := by
  have hlength := (m.bucket t.bucket).length_servedNames_le (Key.directoryPrefix key)
    Key.separatorText
  have hwalk := Listing.perform_walk t.bucket t.suffix (Key.directoryPrefix key)
    (t.settings.one_le_of_chunkLength_eq hchunk) t.pageLimit
    (.start (Key.directoryPrefix key) false t.settings.chunkLength none) m [] rfl rfl hchunk
    (Nat.le_trans (Nat.add_le_add_right hlength 2) hpages)
  rw [DirectoryEntry.foldl_addNew, List.nil_append] at hwalk
  exact perform_list hresolve (Prod.ext hwalk rfl) hlisted

/-- Whether a listing returns entries does not depend on the chunk length. -/
theorem listLevel_withChunkLength {n n' : Int} (hn : 1 ≤ n) (hn' : 1 ≤ n')
    (hresolve : t.resolve path = .ok key)
    (hpages : (m.bucket t.bucket).keys.length + 2 ≤ t.pageLimit) :
    ((∃ entries, (t.withChunkLength n hn).listLevel path m = some (.ok entries)) ∧
        ∃ entries, (t.withChunkLength n' hn').listLevel path m = some (.ok entries)) ∨
      (t.withChunkLength n hn).listLevel path m =
          some (.error (.known (.notFound key (.noSuchDirectory key)))) ∧
        (t.withChunkLength n' hn').listLevel path m =
          some (.error (.known (.notFound key (.noSuchDirectory key)))) := by
  -- which it is depends on the bucket alone
  have hfirst := list_settled (t := t.withChunkLength n hn) false hresolve rfl hpages
  have hsecond := list_settled (t := t.withChunkLength n' hn') false hresolve rfl hpages
  by_cases hthere : Directory.IsAt t.suffix key (m.bucket t.bucket).contents ∧
      ¬ Directory.IsHollow t.suffix key false (m.bucket t.bucket).contents
  · have hnever : ¬ (¬ Directory.IsAt t.suffix key (m.bucket t.bucket).contents ∨
        Directory.IsHollow t.suffix key false (m.bucket t.bucket).contents) :=
      not_or.2 ⟨not_not.2 hthere.1, hthere.2⟩
    obtain ⟨entries, hlisted, -⟩ := hfirst.resolve_right fun h => hnever h.2
    obtain ⟨entries', hlisted', -⟩ := hsecond.resolve_right fun h => hnever h.2
    exact Or.inl ⟨⟨entries, hlisted⟩, entries', hlisted'⟩
  · exact Or.inr ⟨(hfirst.resolve_left fun ⟨_, _, h⟩ => hthere h).1,
      (hsecond.resolve_left fun ⟨_, _, h⟩ => hthere h).1⟩

/-- In memory, listings of one level with two chunk lengths end alike. They return the same
entries, and these come in store order exactly when no group overtakes a key on a page. Two
listings in store order return the same sequence, and with the chunk length one the entries are
always in store order. -/
theorem list_order_iff (t : Tree) (path : Value) (m : Memory) {key : Key} {n n' : Int} (hn : 1 ≤ n)
    (hn' : 1 ≤ n') (hresolve : t.resolve path = .ok key)
    (hpages : (m.bucket t.bucket).keys.length + 2 ≤ t.pageLimit) :
    ((t.withChunkLength n hn).listLevel path m =
        some (.error (.known (.notFound key (.noSuchDirectory key)))) ∧
      (t.withChunkLength n' hn').listLevel path m =
        some (.error (.known (.notFound key (.noSuchDirectory key))))) ∨
    ∃ entries entries',
      (t.withChunkLength n hn).listLevel path m = some (.ok entries) ∧
      (t.withChunkLength n' hn').listLevel path m = some (.ok entries') ∧
      entries.Perm entries' ∧
      (t.InStoreOrder key m entries ↔ ¬ t.Overtakes key m n) ∧
      (t.InStoreOrder key m entries' ↔ ¬ t.Overtakes key m n') ∧
      (t.InStoreOrder key m entries → (entries = entries' ↔ t.InStoreOrder key m entries')) ∧
      (n = 1 → t.InStoreOrder key m entries) := by
  have hsorted := (m.bucket t.bucket).servedNames_increasing (Key.directoryPrefix key)
    Key.separatorText
  rcases listLevel_withChunkLength hn hn' hresolve hpages with
    ⟨⟨entries, hlisted⟩, entries', hlisted'⟩ | hrefused
  · have hentries := list_pages (t := t.withChunkLength n hn) hresolve rfl hpages hlisted
    have hentries' := list_pages (t := t.withChunkLength n' hn') hresolve rfl hpages hlisted'
    have hsize := one_le_pageLength hn
    have hsize' := one_le_pageLength hn'
    have hperm : entries.Perm entries' := by
      rw [hentries, hentries']
      exact (DirectoryEntry.unseen_pageOrder_perm hsize).trans
        (DirectoryEntry.unseen_pageOrder_perm hsize').symm
    have horder : t.InStoreOrder key m entries ↔ ¬ t.Overtakes key m n := by
      rw [hentries]
      exact DirectoryEntry.inStoreOrder_pageOrder_iff hsize hsorted
    have horder' : t.InStoreOrder key m entries' ↔ ¬ t.Overtakes key m n' := by
      rw [hentries']
      exact DirectoryEntry.inStoreOrder_pageOrder_iff hsize' hsorted
    refine Or.inr ⟨entries, entries', hlisted, hlisted', hperm, horder, horder', ?_, ?_⟩
    · refine fun hfirst => ⟨fun hsame => hsame ▸ hfirst, fun hsecond => ?_⟩
      exact DirectoryEntry.InStoreOrder.eq_of_perm hfirst hsecond hperm
    · rintro rfl
      exact horder.2 DirectoryEntry.not_overtakes_one
  · exact Or.inl hrefused

/-- An object followed, in store order, by a directory. -/
def objectFirst : Memory := .ofObjects "b" [("a", [1]), ("b/x", [2])]

/-- On a page of two names the directory overtakes the object. -/
theorem list_order_iff_objectFirst :
    keyByKey.resolve "/" = .ok "" ∧
    (objectFirst.bucket "b").keys.length + 2 ≤ keyByKey.pageLimit ∧
    keyByKey.InStoreOrder "" objectFirst [⟨"a", false⟩, ⟨"b", true⟩] ∧
    ¬ keyByKey.InStoreOrder "" objectFirst [⟨"b", true⟩, ⟨"a", false⟩] ∧
    ¬ keyByKey.Overtakes "" objectFirst 1 ∧ keyByKey.Overtakes "" objectFirst 2 := by
  have hresolve : keyByKey.resolve "/" = .ok "" := rfl
  have hpages : (objectFirst.bucket "b").keys.length + 2 ≤ keyByKey.pageLimit := by decide +kernel
  have hfirst : (keyByKey.withChunkLength 1 (by decide)).listLevel "/" objectFirst =
      some (.ok [⟨"a", false⟩, ⟨"b", true⟩]) := rfl
  have hsecond : (keyByKey.withChunkLength 2 (by decide)).listLevel "/" objectFirst =
      some (.ok [⟨"b", true⟩, ⟨"a", false⟩]) := rfl
  refine ⟨hresolve, hpages, ?_⟩
  rcases list_order_iff keyByKey "/" objectFirst (n := 1) (by decide) (by decide : (1 : Int) ≤ 2)
      hresolve hpages with
    ⟨hrefused, -⟩ | ⟨_, _, hlisted, hlisted', -, horder, horder', hsame, hstore⟩
  · rw [hfirst] at hrefused
    cases hrefused
  · rw [hfirst] at hlisted
    rw [hsecond] at hlisted'
    obtain rfl := Except.ok.inj (Option.some.inj hlisted)
    obtain rfl := Except.ok.inj (Option.some.inj hlisted')
    have hdiffer : [(⟨"a", false⟩ : DirectoryEntry), ⟨"b", true⟩] ≠
        [⟨"b", true⟩, ⟨"a", false⟩] := by decide
    have hnot := mt (hsame (hstore rfl)).2 hdiffer
    exact ⟨hstore rfl, hnot, horder.1 (hstore rfl), not_not.1 (mt horder'.2 hnot)⟩

/-- With the chunk length 1000 the directory comes before the object, and with the chunk length one
after it. -/
theorem list_reorders :
    (keyByKey.withChunkLength 1000 (by decide)).listLevel "/" objectFirst =
      some (.ok [⟨"b", true⟩, ⟨"a", false⟩]) ∧
    (keyByKey.withChunkLength 1 (by decide)).listLevel "/" objectFirst =
      some (.ok [⟨"a", false⟩, ⟨"b", true⟩]) := by
  exact ⟨rfl, rfl⟩

end Tree

end BucketTree
