import BucketTree.Proofs.Store.Paging
import BucketTree.Tree.Listing

/-!
# Sessions of a listing

A listing session asks for one page after another, each time with the continuation token of the last
page, while other clients send requests in between. Each page is cut from the names that the bucket
serves at the time of its request, after the token. `Serves` records this, and everything shown of a
session follows from it: the names are strictly increasing over all pages, so no token is repeated;
a key that is there throughout is represented exactly once; and without changes in between, the
session shows all names in the smallest possible number of pages.
-/

set_option autoImplicit false

namespace BucketTree

/-- A page of a session, with the bucket at the time of its request and the token of the request. -/
structure Visit where
  bucket : Bucket
  after : Option String
  page : Page

/-- The pages of a session so far, and whether the last one had no continuation token. -/
structure ListingSession where
  visits : List Visit
  isComplete : Bool

/-- The names shown by a session, in the order of its pages. -/
def ListingSession.names (session : ListingSession) : List ServedName :=
  session.visits.flatMap (·.page.names)

namespace Memory

/-- The store after the given requests of other clients. -/
def afterAll (name : String) (requests : List Request) (m : Memory) : Memory :=
  requests.foldl (fun m request => (m.answer name request).2) m

/-- A session that asks for one page after each of the given lists of requests by other clients,
until a page has no continuation token. A request with any other outcome ends it. -/
def listingSession (name : String) (request : PageRequest) :
    List (List Request) → Memory → ListingSession
  | [], _ => ⟨[], false⟩
  | between :: rounds, m =>
      match (m.afterAll name between).list name request with
      | (.ok (some page), m') =>
          let visit := ⟨(m.afterAll name between).bucket name, request.after, page⟩
          match page.next with
          | none => ⟨[visit], true⟩
          | some token =>
              let later := listingSession name { request with after := some token } rounds m'
              ⟨visit :: later.visits, later.isComplete⟩
      | _ => ⟨[], false⟩

end Memory

/-- The largest number of names on a page for an integer page size. -/
def pageLength (size : Int) : Nat := (min size pageCap).toNat

theorem one_le_pageLength {size : Int} (hsize : 1 ≤ size) : 1 ≤ pageLength size := by
  unfold pageLength pageCap
  omega

/-- The pages of a session are cut from the names that its buckets serve, each after the token of
its request. -/
inductive Serves (under delimiter : String) (size : Nat) : Option String → ListingSession → Prop
  | start {after : Option String} : Serves under delimiter size after ⟨[], false⟩
  | last {after : Option String} {b : Bucket} {page : Page}
      (hpage : page = Bucket.pageOf (Bucket.namesAfter after (b.servedNames under delimiter)) size)
      (hnext : page.next = none) : Serves under delimiter size after ⟨[⟨b, after, page⟩], true⟩
  | page {after : Option String} {b : Bucket} {page : Page} {token : String}
      {later : ListingSession}
      (hpage : page = Bucket.pageOf (Bucket.namesAfter after (b.servedNames under delimiter)) size)
      (hnext : page.next = some token) (hlater : Serves under delimiter size (some token) later) :
      Serves under delimiter size after ⟨⟨b, after, page⟩ :: later.visits, later.isComplete⟩

namespace Memory

/-- A listing with a positive integer page size is answered by a page. -/
theorem list_int {name : String} {request : PageRequest} {size : Int} (hsize : 1 ≤ size)
    (hmax : request.maxKeys = .int size) (m : Memory) :
    m.list name request = (.ok (some ((m.bucket name).page request (pageLength size))),
      { m with count := { m.count with list := m.count.list + 1 } }) := by
  unfold list
  rw [pageSize_int hsize hmax]
  rfl

/-- Every session in memory satisfies `Serves`. -/
theorem listingSession_serves {name : String} {under delimiter : Option String} {size : Int}
    (hsize : 1 ≤ size) (rounds : List (List Request)) : ∀ (after : Option String) (m : Memory),
      Serves (under.getD "") (delimiter.getD "") (pageLength size) after
        (m.listingSession name ⟨under, delimiter, .int size, after⟩ rounds) := by
  induction rounds with
  | nil => exact fun after m => .start
  | cons between rounds ih =>
      intro after m
      unfold listingSession
      rw [list_int hsize rfl]
      dsimp only
      split
      next hnext => exact .last rfl hnext
      next token hnext => exact .page rfl hnext (ih (some token) _)

end Memory

/-! ## What a session shows -/

/-- A page shows an initial segment of the names after its token. -/
theorem Bucket.names_page {after : Option String} {under delimiter : String} {size : Nat}
    {b : Bucket} {page : Page}
    (hpage : page = pageOf (namesAfter after (b.servedNames under delimiter)) size) :
    page.names = (namesAfter after (b.servedNames under delimiter)).take size := by
  rw [hpage]
  exact names_pageOf (namesAfter_increasing after under delimiter b) size

namespace Serves

variable {under delimiter : String} {size : Nat} {after : Option String}
  {session : ListingSession}

/-- The names of a page come after the token of its request. -/
theorem lt_of_mem_page {b : Bucket} {page : Page}
    (hpage : page = Bucket.pageOf (Bucket.namesAfter after (b.servedNames under delimiter)) size)
    {e : ServedName} (he : e ∈ page.names) : ∀ token, after = some token → token < e.name := by
  rw [Bucket.names_page hpage] at he
  exact (Bucket.mem_namesAfter.1 (List.mem_of_mem_take he)).2

/-- The continuation token of a page is the name of its last entry. -/
theorem token_of_page {b : Bucket} {page : Page} {token : String}
    (hpage : page = Bucket.pageOf (Bucket.namesAfter after (b.servedNames under delimiter)) size)
    (hnext : page.next = some token) :
    (∃ last ∈ page.names, last.name = token) ∧ ∀ e ∈ page.names, e.name ≤ token := by
  rw [Bucket.names_page hpage]
  rw [hpage] at hnext
  obtain ⟨-, hlast, hle, -⟩ :=
    Bucket.next_eq_some (Bucket.namesAfter_increasing after under delimiter b) hnext
  exact ⟨hlast, hle⟩

/-- All names of a session come after the token of its first request. -/
theorem lt_of_mem (h : Serves under delimiter size after session) :
    ∀ e ∈ session.names, ∀ token, after = some token → token < e.name := by
  induction h with
  | start => exact fun e he => absurd he List.not_mem_nil
  | last hpage hnext =>
      intro e he
      rcases List.mem_append.1 he with he | he
      · exact lt_of_mem_page hpage he
      · cases he
  | @page after b page token later hpage hnext hlater ih =>
      intro e he start hstart
      rcases List.mem_append.1 he with he | he
      · exact lt_of_mem_page hpage he start hstart
      · obtain ⟨⟨last, hlast, rfl⟩, -⟩ := token_of_page hpage hnext
        exact String.lt_trans (lt_of_mem_page hpage hlast start hstart) (ih e he last.name rfl)

/-- The names of a session are strictly increasing. -/
theorem names_increasing (h : Serves under delimiter size after session) :
    session.names.Pairwise fun a b => a.name < b.name := by
  have hsorted : ∀ {after : Option String} {b : Bucket} {page : Page},
      page = Bucket.pageOf (Bucket.namesAfter after (b.servedNames under delimiter)) size →
      page.names.Pairwise fun a b => a.name < b.name := by
    intro after b page hpage
    rw [Bucket.names_page hpage]
    exact (Bucket.namesAfter_increasing after under delimiter b).sublist (List.take_sublist _ _)
  induction h with
  | start => exact .nil
  | last hpage hnext =>
      show (_ ++ []).Pairwise _
      rw [List.append_nil]
      exact hsorted hpage
  | page hpage hnext hlater ih =>
      refine List.pairwise_append.2 ⟨hsorted hpage, ih, ?_⟩
      intro e he e' he'
      exact Std.lt_of_le_of_lt ((token_of_page hpage hnext).2 e he)
        (hlater.lt_of_mem e' he' _ rfl)

/-- Each page is cut from the names that its bucket serves after the token of its request. -/
theorem page_eq (h : Serves under delimiter size after session) :
    ∀ visit ∈ session.visits, visit.page = Bucket.pageOf
      (Bucket.namesAfter visit.after (visit.bucket.servedNames under delimiter)) size := by
  induction h with
  | start => exact fun visit hvisit => absurd hvisit List.not_mem_nil
  | last hpage hnext =>
      intro visit hvisit
      rw [List.mem_singleton.1 hvisit]
      exact hpage
  | page hpage hnext hlater ih =>
      intro visit hvisit
      rcases List.mem_cons.1 hvisit with rfl | hvisit
      · exact hpage
      · exact ih visit hvisit

/-- Each name on a page represents a key that is in the bucket at the time of the page. -/
theorem represents (h : Serves under delimiter size after session) {visit : Visit}
    (hvisit : visit ∈ session.visits) {e : ServedName} (he : e ∈ visit.page.names) :
    ∃ key, visit.bucket.contents key ≠ none ∧ ServedName.Represents under delimiter e key := by
  rw [Bucket.names_page (h.page_eq visit hvisit)] at he
  exact Bucket.mem_servedNames.1 (Bucket.mem_namesAfter.1 (List.mem_of_mem_take he)).1

/-- A page with a continuation token is full. -/
theorem length_of_next (h : Serves under delimiter size after session) {visit : Visit}
    (hvisit : visit ∈ session.visits) (hnext : visit.page.next ≠ none) :
    visit.page.names.length = size := by
  have hpage := h.page_eq visit hvisit
  obtain ⟨token, htoken⟩ := Option.ne_none_iff_exists'.1 hnext
  rw [hpage] at htoken
  have hmore := (Bucket.next_eq_some
    (Bucket.namesAfter_increasing visit.after under delimiter visit.bucket) htoken).1
  rw [Bucket.names_page hpage, List.length_take, Nat.min_eq_left (Nat.le_of_lt hmore)]

/-- The page is accepted by a listing with the token of its request: its continuation token is a
different one. -/
theorem chunkOf_page (h : Serves under delimiter size after session) {visit : Visit}
    (hvisit : visit ∈ session.visits) {l : Listing} (hl : l.token = visit.after) :
    ∃ chunk, l.chunkOf (some visit.page) = .ok chunk := by
  have hpage := h.page_eq visit hvisit
  -- a repeated token would be a name of the page that does not come after the token
  have hadvances : ¬ (visit.page.next.isSome && visit.page.next == l.token) = true := by
    intro hstuck
    obtain ⟨hsome, hsame⟩ := Bool.and_eq_true_iff.1 hstuck
    obtain ⟨token, htoken⟩ := Option.isSome_iff_exists.1 hsome
    obtain ⟨⟨last, hlast, rfl⟩, -⟩ := token_of_page hpage htoken
    rw [htoken, hl] at hsame
    exact String.lt_irrefl _ (lt_of_mem_page hpage hlast _ (eq_of_beq hsame).symm)
  rw [hpage] at hadvances ⊢
  exact ⟨⟨_, _, _⟩, if_neg hadvances⟩

/-- A complete session shows each name that the bucket serves at every page. -/
theorem mem_of_complete (h : Serves under delimiter size after session) (hsize : 1 ≤ size)
    (hcomplete : session.isComplete = true) {e : ServedName}
    (hafter : ∀ token, after = some token → token < e.name)
    (he : ∀ visit ∈ session.visits, e ∈ visit.bucket.servedNames under delimiter) :
    e ∈ session.names := by
  induction h with
  | start => cases hcomplete
  | @last after b page hpage hnext =>
      apply List.mem_append_left _
      show e ∈ page.names
      rw [hpage] at hnext
      rw [Bucket.names_page hpage, List.take_of_length_le (Bucket.take_of_next_none hsize hnext)]
      exact Bucket.mem_namesAfter.2 ⟨he _ (List.mem_singleton.2 rfl), hafter⟩
  | @page after b page token later hpage hnext hlater ih =>
      -- the name is on this page, or among those that the page leaves over
      have hleft := Bucket.mem_namesAfter.2 ⟨he _ List.mem_cons_self, hafter⟩
      rw [← List.take_append_drop size (Bucket.namesAfter after _)] at hleft
      rcases List.mem_append.1 hleft with hshown | hleft
      · apply List.mem_append_left _
        show e ∈ page.names
        rwa [Bucket.names_page hpage]
      · refine List.mem_append_right _ (ih hcomplete ?_ ?_)
        · rintro _ ⟨⟩
          rw [hpage] at hnext
          exact (Bucket.next_eq_some
            (Bucket.namesAfter_increasing after under delimiter b) hnext).2.2.2 e hleft
        · intro visit hvisit
          exact he visit (List.mem_cons_of_mem _ hvisit)

end Serves

/-! ## Whole sessions -/

/-- The guarantees of a session, for any requests of other clients between its pages. -/
structure SessionSound (under delimiter : String) (size : Int) (session : ListingSession) :
    Prop where
  /-- The names are strictly increasing over all pages. -/
  names_increasing : session.names.Pairwise fun a b => a.name < b.name
  /-- Each page is accepted by a listing with the token of its request, since its continuation token
  is a different one. -/
  token_advances : ∀ visit ∈ session.visits, ∀ l : Listing, l.token = visit.after →
    ∃ chunk, l.chunkOf (some visit.page) = .ok chunk
  /-- In a complete session, a key that is in the bucket at every request is represented exactly
  once. -/
  keys_represented : session.isComplete = true → ∀ rest,
    (∀ visit ∈ session.visits, visit.bucket.contents (under ++ rest) ≠ none) →
      ∃ e, ServedName.Represents under delimiter e (under ++ rest) ∧ session.names.count e = 1 ∧
        ∀ e' ∈ session.names, ServedName.Represents under delimiter e' (under ++ rest) → e' = e
  /-- Each name on a page represents a key that is in the bucket at the time of the page. -/
  names_represent : ∀ visit ∈ session.visits, ∀ e ∈ visit.page.names,
    ∃ key, visit.bucket.contents key ≠ none ∧ ServedName.Represents under delimiter e key
  /-- A page with a continuation token is full: it has as many names as the page size or the cap of
  1000 allows. -/
  pages_full : ∀ visit ∈ session.visits, visit.page.next ≠ none →
    (visit.page.names.length : Int) = min size 1000

theorem Serves.sound {under delimiter : String} {size : Int} {session : ListingSession}
    (hsize : 1 ≤ size) (h : Serves under delimiter (pageLength size) none session) :
    SessionSound under delimiter size session where
  names_increasing := h.names_increasing
  token_advances := fun visit hvisit l hl => h.chunkOf_page hvisit hl
  keys_represented := by
    intro hcomplete rest hpresent
    have hrepresents := ServedName.represents_ofKey under delimiter rest
    have hmem := h.mem_of_complete (one_le_pageLength hsize) hcomplete
      (fun token htoken => by cases htoken)
      (fun visit hvisit => Bucket.mem_servedNames.2 ⟨_, hpresent visit hvisit, hrepresents⟩)
    refine ⟨_, hrepresents, ?_, ?_⟩
    · refine List.count_eq_one_of_mem ?_ hmem
      apply h.names_increasing.imp
      rintro a b hlt rfl
      exact String.lt_irrefl _ hlt
    · intro e' _ he'
      exact (ServedName.ofKey_eq_of_represents he').symm
  names_represent := fun visit hvisit e he => h.represents hvisit he
  pages_full := by
    intro visit hvisit hnext
    rw [h.length_of_next hvisit hnext]
    unfold pageLength pageCap
    omega

namespace Memory

variable {name : String} {under delimiter : Option String} {size : Int}

/-- A session is complete, or all of its requests were answered by pages. -/
theorem listingSession_answered (hsize : 1 ≤ size) (rounds : List (List Request)) :
    ∀ (after : Option String) (m : Memory),
      (m.listingSession name ⟨under, delimiter, .int size, after⟩ rounds).isComplete = true ∨
        (m.listingSession name ⟨under, delimiter, .int size, after⟩ rounds).visits.length =
          rounds.length := by
  induction rounds with
  | nil => exact fun after m => Or.inr rfl
  | cons between rounds ih =>
      intro after m
      unfold listingSession
      rw [list_int hsize rfl]
      dsimp only
      split
      next => exact Or.inl rfl
      next token _ => exact (ih (some token) _).imp id (congrArg (· + 1))

/-- The smallest number of pages for the given number of names; an empty listing takes one page. -/
def pagesFor (count length : Nat) : Nat := max 1 ((count + length - 1) / length)

theorem pagesFor_of_le {count length : Nat} (hlength : 1 ≤ length) (h : count ≤ length) :
    pagesFor count length = 1 := by
  have hpages : (count + length - 1) / length < 2 := by
    rw [Nat.div_lt_iff_lt_mul hlength]
    omega
  unfold pagesFor
  omega

theorem pagesFor_of_lt {count length : Nat} (hlength : 1 ≤ length) (h : length < count) :
    pagesFor count length = pagesFor (count - length) length + 1 := by
  have hrest : count + length - 1 = count - 1 + length := by omega
  have hone : 1 ≤ (count - 1) / length := by
    rw [Nat.le_div_iff_mul_le hlength]
    omega
  have hless : count - length + length - 1 = count - 1 := by omega
  unfold pagesFor
  rw [hrest, hless, Nat.add_div_right _ hlength]
  omega

/-- Without requests of other clients, a session with enough rounds is complete and shows all names
after its token in the smallest number of pages. -/
theorem listingSession_unchanged (hsize : 1 ≤ size) (rounds : List (List Request)) :
    ∀ (after : Option String) (m : Memory) (names : List ServedName),
      (∀ between ∈ rounds, between = []) →
      names = Bucket.namesAfter after
        ((m.bucket name).servedNames (under.getD "") (delimiter.getD "")) →
      pagesFor names.length (pageLength size) ≤ rounds.length →
      let session := m.listingSession name ⟨under, delimiter, .int size, after⟩ rounds
      session.isComplete = true ∧
        session.visits.length = pagesFor names.length (pageLength size) ∧
        session.names = names := by
  have hlength := one_le_pageLength hsize
  induction rounds with
  | nil =>
      intro after m names _ _ hpages
      unfold pagesFor at hpages
      simp at hpages
  | cons between rounds ih =>
      intro after m names hbetween hnames hpages
      obtain rfl := hbetween between List.mem_cons_self
      have hpage : (m.bucket name).page ⟨under, delimiter, .int size, after⟩ (pageLength size) =
          Bucket.pageOf names (pageLength size) := by
        rw [hnames]
        rfl
      have hsorted := Bucket.namesAfter_increasing after (under.getD "") (delimiter.getD "")
        (m.bucket name)
      rw [← hnames] at hsorted
      have hshown := Bucket.names_pageOf hsorted (pageLength size)
      unfold listingSession
      rw [show m.afterAll name [] = m from rfl, list_int hsize rfl, hpage]
      dsimp only
      split
      next hnext =>
        have hall := Bucket.take_of_next_none hlength hnext
        refine ⟨rfl, (pagesFor_of_le hlength hall).symm, ?_⟩
        show (Bucket.pageOf names (pageLength size)).names ++ [] = names
        rw [List.append_nil, hshown, List.take_of_length_le hall]
      next token hnext =>
        -- the names left are those after the token, in one page less
        have hmore := (Bucket.next_eq_some hsorted hnext).1
        have hleft : names.drop (pageLength size) = Bucket.namesAfter (some token)
            ((m.bucket name).servedNames (under.getD "") (delimiter.getD "")) := by
          subst hnames
          exact (Bucket.namesAfter_leftOver hsorted hnext).symm
        have hpagesLeft := pagesFor_of_lt hlength hmore
        rw [← List.length_drop] at hpagesLeft
        obtain ⟨hcomplete, hvisits, hnamesLeft⟩ := ih (some token)
          { m with count := { m.count with list := m.count.list + 1 } } _
          (fun between h => hbetween between (List.mem_cons_of_mem _ h)) hleft (by
            rw [hpagesLeft, List.length_cons] at hpages
            exact Nat.le_of_succ_le_succ hpages)
        refine ⟨hcomplete, ?_, ?_⟩
        · rw [hpagesLeft, ← hvisits]
          rfl
        · show (Bucket.pageOf names (pageLength size)).names ++ ListingSession.names _ = names
          rw [hnamesLeft, hshown, List.take_append_drop]

/-- Every session in memory that starts without a token has the guarantees of `SessionSound`,
whatever other clients do between its pages, and all of its requests are answered. Without requests
of other clients it shows the names of all keys, in the smallest number of pages. -/
theorem listingSession_sound (name : String) (under delimiter : Option String) (size : Int)
    (hsize : 1 ≤ size) (rounds : List (List Request)) (m : Memory) :
    let session := m.listingSession name ⟨under, delimiter, .int size, none⟩ rounds
    SessionSound (under.getD "") (delimiter.getD "") size session ∧
      (session.isComplete = true ∨ session.visits.length = rounds.length) ∧
      ((∀ between ∈ rounds, between = []) → ∃ names : List ServedName,
        (names.Pairwise fun a b => a.name < b.name) ∧
        (∀ e, e ∈ names ↔ ∃ key, (m.bucket name).contents key ≠ none ∧
          ServedName.Represents (under.getD "") (delimiter.getD "") e key) ∧
        (pagesFor names.length (min size 1000).toNat ≤ rounds.length →
          session.isComplete = true ∧ session.names = names ∧
            session.visits.length = pagesFor names.length (min size 1000).toNat)) := by
  intro session
  refine ⟨(listingSession_serves hsize rounds none m).sound hsize,
    listingSession_answered hsize rounds none m, ?_⟩
  intro hbetween
  refine ⟨(m.bucket name).servedNames (under.getD "") (delimiter.getD ""),
    (m.bucket name).servedNames_increasing _ _, fun e => Bucket.mem_servedNames, ?_⟩
  intro hpages
  obtain ⟨hcomplete, hvisits, hnames⟩ :=
    listingSession_unchanged hsize rounds none m _ hbetween rfl hpages
  exact ⟨hcomplete, hnames, hvisits⟩

/-- A bucket with three names under `p/` and the delimiter `//`; one of them is a group of two
keys. -/
def book : Memory :=
  ofObjects "b" [("p/a", [0]), ("p/b//c", [1]), ("p/b//d", [2]), ("p/e", [3])]

/-- Between the two pages of the session, other clients delete one key and copy another to a later
key. The deleted key is not shown, and the copy is. -/
theorem listingSession_sound_book :
    SessionSound "p/" "//" 2 (book.listingSession "b" ⟨"p/", "//", .int 2, none⟩
        [[], [.delete "p/e", .copy "p/a" "p/f"]]) ∧
      (book.listingSession "b" ⟨"p/", "//", .int 2, none⟩
        [[], [.delete "p/e", .copy "p/a" "p/f"]]).isComplete = true ∧
      (book.listingSession "b" ⟨"p/", "//", .int 2, none⟩
        [[], [.delete "p/e", .copy "p/a" "p/f"]]).names =
          [⟨"p/a", false⟩, ⟨"p/b//", true⟩, ⟨"p/f", false⟩] := by
  obtain ⟨hsound, -⟩ := listingSession_sound "b" "p/" "//" 2 (by decide)
    [[], [.delete "p/e", .copy "p/a" "p/f"]] book
  exact ⟨hsound, by decide +kernel, by decide +kernel⟩

end Memory

end BucketTree
