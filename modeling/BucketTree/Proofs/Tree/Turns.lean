import BucketTree.Proofs.Program.Candid
import BucketTree.Proofs.Tree.Listing

/-!
# Sequences of calls for chunks

A turn is one call for the next chunk of a listing: its exchanges with the store and its outcome.
Between the turns the store may change in any way, and the token may be set. The turns of a listing
follow a `Listing.Course`: pages with a continuation token, each asked for with the token of the
page before; then one turn that ends the listing (`Listing.Ends`); from then on, turns that send
nothing and return nothing.
-/

set_option autoImplicit false

namespace BucketTree

variable {σ : Type}

/-- One call for the next chunk of a listing. -/
structure Turn where
  /-- Whether the token of the listing was set when the call was made. -/
  isCancelled : Bool
  exchanges : List Exchange
  /-- The outcome of the call, or `none` if the call did not end. -/
  outcome : Option (Except Fault (Option Chunk))

/-- The page with the lists and the continuation token of a chunk. -/
def Chunk.page (chunk : Chunk) : Page := ⟨some chunk.keys, some chunk.groups, chunk.next⟩

/-- The chunk of a well-formed page that does not repeat the token of its request. -/
def Exchange.chunk? : Exchange → Option Chunk
  | ⟨.list request, .ok (some ⟨some keys, some groups, next⟩)⟩ =>
      if next.isSome && next == request.after then none else some ⟨keys, groups, next⟩
  | _ => none

namespace Turn

/-- The chunk that the call returns. -/
def chunk? (turn : Turn) : Option Chunk :=
  match turn.outcome with
  | some (.ok chunk) => chunk
  | _ => none

/-- The call returns a chunk with a continuation token. -/
def goesOn (turn : Turn) : Bool := turn.chunk?.any fun chunk => chunk.next.isSome

/-- The call sends nothing and returns no chunk. -/
def IsSilent (turn : Turn) : Prop := turn.exchanges = [] ∧ turn.outcome = some (.ok none)

theorem IsSilent.chunk? {turn : Turn} (h : turn.IsSilent) : turn.chunk? = none := by
  unfold Turn.chunk?
  rw [h.2]

end Turn

/-- The chunks that the calls return, in order. -/
def chunksOf (turns : List Turn) : List Chunk := turns.filterMap (·.chunk?)

/-- The exchanges of the calls, in order. -/
def exchangesOf (turns : List Turn) : List Exchange := turns.flatMap (·.exchanges)

namespace Listing

/-- The request for the page after a token. -/
def requestAfter (l : Listing) (token : Option String) : Request :=
  .list { l.pageRequest with after := token }

/-- Whether the token of the listing is set. -/
def isCancelledAt (l : Listing) (backend : Backend σ) (s : σ) : Bool :=
  l.cancel.any fun token => backend.isCancelled token s

/-- The turns of a caller that asks for a chunk after each of the given changes of the store. -/
def turns (backend : Backend σ) : List (σ → σ) → Listing → σ → List Turn
  | [], _, _ => []
  | change :: changes, l, s =>
      let turn := Turn.mk (l.isCancelledAt backend (change s)) (l.next.exchanges backend (change s))
      match l.next.run backend (change s) with
      | (some (outcome, l'), s') => turn (some outcome) :: turns backend changes l' s'
      | (none, _) => [turn none]

/-- The turns that end a listing whose next page is the one after the token `after`. -/
inductive Ends (l : Listing) (after : Option String) : Turn → Prop
  /-- The token is set, and no request is sent. -/
  | cancelled : Ends l after ⟨true, [], some (.error (.known (.cancelled (some l.context))))⟩
  /-- The request for the page fails. -/
  | failed {fault : Fault} :
      Ends l after ⟨false, [⟨l.requestAfter after, .error fault⟩],
        some (.error (.known (.listing l.under (.listFailed l.subject
          (fault.toFailure (some "LIST") l.under).message))))⟩
  /-- The answer is no page, or a page without one of its lists. -/
  | malformed {answer : Option Page}
      (hlacks : ∀ page ∈ answer, page.keys = none ∨ page.groups = none) :
      Ends l after ⟨false, [⟨l.requestAfter after, .ok answer⟩],
        some (.error (.known (.listing l.under (.malformedPage l.subject))))⟩
  /-- The page repeats the token of its request. -/
  | stuck (chunk : Chunk) {token : String} (hnext : chunk.next = some token)
      (hsame : after = some token) :
      Ends l after ⟨false, [⟨l.requestAfter after, .ok (some chunk.page)⟩],
        some (.error (.known (.listing l.under (.stuckToken l.subject))))⟩
  /-- The page has no continuation token. -/
  | last (chunk : Chunk) (hnext : chunk.next = none) :
      Ends l after ⟨false, [⟨l.requestAfter after, .ok (some chunk.page)⟩],
        some (.ok (some chunk))⟩

/-- The sequences of turns of a listing whose next page is the one after the token `after`. -/
inductive Course (l : Listing) : Option String → List Turn → Prop
  | unasked {after : Option String} : Course l after []
  /-- A page with a new continuation token, after which the listing goes on. -/
  | page {after : Option String} {chunk : Chunk} {token : String} {later : List Turn}
      (hnext : chunk.next = some token) (hadvances : some token ≠ after)
      (hlater : Course l (some token) later) :
      Course l after (⟨false, [⟨l.requestAfter after, .ok (some chunk.page)⟩],
        some (.ok (some chunk))⟩ :: later)
  | ended {after : Option String} {turn : Turn} {later : List Turn} (hends : l.Ends after turn)
      (hsilent : ∀ t ∈ later, t.IsSilent) : Course l after (turn :: later)

/-! ## One turn -/

section Next

variable {l : Listing}

/-- A finished listing sends nothing and is unchanged. -/
theorem next_of_isDone (h : l.isDone = true) : l.next = pure (.ok none, l) := by
  unfold next
  rw [if_pos h]

/-- The turn of a call on an open listing, and the listing afterwards. -/
inductive Called (l : Listing) : Turn → Listing → Prop
  | page (chunk : Chunk) {token : String} (hnext : chunk.next = some token)
      (hadvances : some token ≠ l.token) :
      Called l ⟨false, [⟨l.requestAfter l.token, .ok (some chunk.page)⟩], some (.ok (some chunk))⟩
        (l.advance chunk)
  | ended {turn : Turn} {l' : Listing} (hends : l.Ends l.token turn) (hdone : l'.isDone = true) :
      Called l turn l'

/-- The token of the listing is checked once. -/
theorem run_isCancelled_bind {α : Type} (l : Listing) (backend : Backend σ) (s : σ)
    (f : Bool → Program α) :
    (Program.isCancelled l.cancel >>= f).run backend s =
        (f (l.isCancelledAt backend s)).run backend s ∧
      (Program.isCancelled l.cancel >>= f).exchanges backend s =
        (f (l.isCancelledAt backend s)).exchanges backend s := by
  unfold isCancelledAt
  cases l.cancel with
  | none => exact ⟨rfl, rfl⟩
  | some token => exact ⟨rfl, rfl⟩

/-- The request for a page is sent once. -/
theorem run_list_bind {α : Type} (page : PageRequest) (backend : Backend σ) (s : σ)
    (f : Except Fault (Option Page) → Program α) :
    (Program.list page >>= f).run backend s =
        (f (backend.answer (.list page) s).1).run backend (backend.answer (.list page) s).2 ∧
      (Program.list page >>= f).exchanges backend s =
        ⟨.list page, (backend.answer (.list page) s).1⟩ ::
          (f (backend.answer (.list page) s).1).exchanges backend
            (backend.answer (.list page) s).2 :=
  ⟨rfl, rfl⟩

/-- An answer to the request for the next page makes a chunk, or it ends the listing with a
failure. -/
theorem called_of_answer (l : Listing) (page : Option Page) :
    (∃ chunk, l.chunkOf page = .ok chunk ∧
      l.Called ⟨false, [⟨l.requestAfter l.token, .ok page⟩], some (.ok (some chunk))⟩
        (l.advance chunk)) ∨
    ∃ failure, l.chunkOf page = .error failure ∧
      l.Ends l.token ⟨false, [⟨l.requestAfter l.token, .ok page⟩],
        some (.error (.known failure))⟩ := by
  unfold chunkOf
  split
  next keys groups next =>
      cases next with
      | none =>
          exact Or.inl ⟨⟨keys, groups, none⟩, rfl, .ended (.last ⟨keys, groups, none⟩ rfl) rfl⟩
      | some token =>
          -- a page goes on with a token other than the one that asked for it
          by_cases hsame : l.token = some token
          · refine Or.inr ⟨_, if_pos ?_, .stuck ⟨keys, groups, some token⟩ rfl hsame⟩
            rw [hsame, beq_self_eq_true]
            rfl
          · refine Or.inl ⟨⟨keys, groups, some token⟩, if_neg ?_,
              .page ⟨keys, groups, some token⟩ rfl (Ne.symm hsame)⟩
            rw [Option.isSome_some, Bool.true_and, beq_iff_eq]
            exact Ne.symm hsame
  next hlacks =>
      refine Or.inr ⟨_, rfl, .malformed ?_⟩
      rintro ⟨_ | keys, _ | groups, next⟩ hpage
      · exact Or.inl rfl
      · exact Or.inl rfl
      · exact Or.inr rfl
      · exact (hlacks keys groups next hpage).elim

/-- Every call on an open listing ends, with a page and a continuation token or with the end of the
listing. -/
theorem exists_called (backend : Backend σ) (s : σ) (hopen : l.isDone = false) :
    ∃ outcome l' s', l.next.run backend s = (some (outcome, l'), s') ∧
      l.Called ⟨l.isCancelledAt backend s, l.next.exchanges backend s, some outcome⟩ l' := by
  unfold next
  rw [if_neg (hopen ▸ Bool.false_ne_true)]
  -- the token is looked at first, and the store is asked only when it is not set
  obtain ⟨hrun, hexchanges⟩ := run_isCancelled_bind l backend s _
  rw [hrun, hexchanges]
  cases l.isCancelledAt backend s with
  | true => exact ⟨_, _, _, rfl, .ended .cancelled rfl⟩
  | false =>
      obtain ⟨hrun, hexchanges⟩ := run_list_bind l.pageRequest backend s _
      rw [if_neg Bool.false_ne_true, hrun, hexchanges]
      rcases (backend.answer (.list l.pageRequest) s).1 with fault | page
      · exact ⟨_, _, _, rfl, .ended .failed rfl⟩
      · dsimp only
        rcases called_of_answer l page with ⟨chunk, hchunk, hcalled⟩ | ⟨failure, hfailure, hends⟩
        · rw [hchunk]
          exact ⟨_, _, _, rfl, hcalled⟩
        · rw [hfailure]
          exact ⟨_, _, _, rfl, .ended hends rfl⟩

end Next

/-! ## All turns -/

variable {l : Listing} {after : Option String}

/-- The endings of a listing after a page are endings of the listing before it. -/
theorem Ends.of_advance {chunk : Chunk} {turn : Turn} (h : (l.advance chunk).Ends after turn) :
    l.Ends after turn := by
  cases h with
  | cancelled => exact .cancelled
  | failed => exact .failed
  | malformed hlacks => exact .malformed hlacks
  | stuck chunk hnext hsame => exact .stuck chunk hnext hsame
  | last chunk hnext => exact .last chunk hnext

theorem Course.of_advance {chunk : Chunk} {turns : List Turn}
    (h : (l.advance chunk).Course after turns) : l.Course after turns := by
  induction h with
  | unasked => exact .unasked
  | page hnext hadvances _ ih => exact .page hnext hadvances ih
  | ended hends hsilent => exact .ended hends.of_advance hsilent

/-- The turns of a finished listing are silent. -/
theorem turns_of_isDone (backend : Backend σ) (hdone : l.isDone = true) (changes : List (σ → σ)) :
    ∀ s, (l.turns backend changes s).length = changes.length ∧
      ∀ turn ∈ l.turns backend changes s, turn.IsSilent := by
  induction changes with
  | nil => exact fun s => ⟨rfl, fun turn hturn => absurd hturn List.not_mem_nil⟩
  | cons change changes ih =>
      intro s
      obtain ⟨hlength, hsilent⟩ := ih (change s)
      unfold turns
      rw [next_of_isDone hdone]
      refine ⟨congrArg (· + 1) hlength, ?_⟩
      intro turn hturn
      rcases List.mem_cons.1 hturn with rfl | hturn
      · exact ⟨rfl, rfl⟩
      · exact hsilent turn hturn

/-- The turns of an open listing follow its course, one turn for each call. -/
theorem course_turns (backend : Backend σ) (changes : List (σ → σ)) :
    ∀ (l : Listing) (s : σ), l.isDone = false →
      (l.turns backend changes s).length = changes.length ∧
        l.Course l.token (l.turns backend changes s) := by
  induction changes with
  | nil => exact fun l s _ => ⟨rfl, .unasked⟩
  | cons change changes ih =>
      intro l s hopen
      obtain ⟨outcome, l', s', hrun, hcalled⟩ := exists_called backend (change s) hopen
      unfold turns
      rw [hrun]
      -- the course goes by how the call turned out, not by how its record came about
      generalize hexchanges : l.next.exchanges backend (change s) = exchanges at hcalled
      generalize hset : l.isCancelledAt backend (change s) = isSet at hcalled
      dsimp only
      cases hcalled with
      | @page chunk token hnext hadvances =>
          obtain ⟨hlength, hcourse⟩ :=
            ih (l.advance chunk) s' (by rw [advance, hnext]; rfl)
          have htoken : (l.advance chunk).token = some token := hnext
          rw [htoken] at hcourse
          exact ⟨congrArg (· + 1) hlength, .page hnext hadvances hcourse.of_advance⟩
      | ended hends hdone =>
          obtain ⟨hlength, hsilent⟩ := turns_of_isDone backend hdone changes s'
          exact ⟨congrArg (· + 1) hlength, .ended hends hsilent⟩

/-! ## What a course says -/

/-- Each turn sends at most one request. -/
theorem Course.length_exchanges {turns : List Turn} (h : l.Course after turns) :
    ∀ turn ∈ turns, turn.exchanges.length ≤ 1 := by
  induction h with
  | unasked => exact fun turn hturn => absurd hturn List.not_mem_nil
  | page _ _ _ ih => exact List.forall_mem_cons.2 ⟨le_refl 1, ih⟩
  | ended hends hsilent =>
      refine List.forall_mem_cons.2 ⟨?_, ?_⟩
      · cases hends with
        | cancelled => exact Nat.zero_le 1
        | _ => exact le_refl 1
      · intro turn hturn
        rw [(hsilent turn hturn).1]
        exact Nat.zero_le 1

/-- Silent turns have no exchanges and return no chunks. -/
theorem exchangesOf_silent {turns : List Turn} (h : ∀ turn ∈ turns, turn.IsSilent) :
    exchangesOf turns = [] ∧ chunksOf turns = [] :=
  ⟨List.flatMap_eq_nil_iff.2 fun turn hturn => (h turn hturn).1,
    List.filterMap_eq_nil_iff.2 fun turn hturn => (h turn hturn).chunk?⟩

/-- The first request has the initial token, and each later request has the continuation token of
the chunk before it. -/
theorem Course.requests {turns : List Turn} (h : l.Course after turns) :
    (exchangesOf turns).map (·.request) <+:
      (after :: (chunksOf turns).map (·.next)).map l.requestAfter := by
  induction h with
  | unasked => exact List.nil_prefix
  | @page after chunk token later hnext _ _ ih =>
      show l.requestAfter after :: (exchangesOf later).map (·.request) <+:
        l.requestAfter after :: (chunk.next :: (chunksOf later).map (·.next)).map l.requestAfter
      rw [hnext]
      exact (List.prefix_cons_inj _).2 ih
  | @ended after turn later hends hsilent =>
      -- the last request is the one of the turn that ends the listing, if that asks at all
      obtain ⟨hexchanges, -⟩ := exchangesOf_silent hsilent
      have hrequests : (exchangesOf (turn :: later)).map (·.request) =
          turn.exchanges.map (·.request) := by
        show ((turn.exchanges ++ exchangesOf later).map (·.request)) = _
        rw [hexchanges, List.append_nil]
      rw [hrequests]
      cases hends with
      | cancelled => exact List.nil_prefix
      | _ => exact (List.prefix_cons_inj _).2 List.nil_prefix

/-- The chunk of the page made from a chunk. -/
theorem chunk?_page (chunk : Chunk) :
    Exchange.chunk? ⟨l.requestAfter after, .ok (some chunk.page)⟩ =
      if chunk.next.isSome && chunk.next == after then none else some chunk := rfl

/-- The chunk that the ending turn returns is that of its answer, if the answer is well formed. -/
theorem Ends.chunk?_eq {turn : Turn} (h : l.Ends after turn) :
    turn.chunk?.toList = turn.exchanges.filterMap (·.chunk?) := by
  cases h with
  | cancelled => rfl
  | failed => rfl
  | @malformed answer hlacks =>
      rcases answer with _ | ⟨_ | keys, _ | groups, next⟩
      · rfl
      · rfl
      · rfl
      · rfl
      · rcases hlacks _ rfl with hnone | hnone <;> cases hnone
  | @stuck chunk token hnext hsame =>
      have hrepeats : (chunk.next.isSome && chunk.next == after) = true := by
        rw [hnext, hsame, beq_self_eq_true]
        rfl
      rw [List.filterMap_cons, chunk?_page, if_pos hrepeats]
      rfl
  | last chunk hnext =>
      have hends : ¬ (chunk.next.isSome && chunk.next == after) = true := by
        rw [hnext]
        exact Bool.false_ne_true
      rw [List.filterMap_cons, chunk?_page, if_neg hends]
      rfl

/-- The chunks returned are those of the well-formed answers, in order. -/
theorem Course.chunksOf_eq {turns : List Turn} (h : l.Course after turns) :
    chunksOf turns = (exchangesOf turns).filterMap (·.chunk?) := by
  induction h with
  | unasked => rfl
  | @page after chunk token later hnext hadvances _ ih =>
      have hgoes : ¬ (chunk.next.isSome && chunk.next == after) = true := by
        rw [hnext, Option.isSome_some, Bool.true_and, beq_iff_eq]
        exact hadvances
      show chunk :: chunksOf later =
        (⟨l.requestAfter after, .ok (some chunk.page)⟩ :: exchangesOf later).filterMap (·.chunk?)
      rw [List.filterMap_cons, chunk?_page, if_neg hgoes, ih]
  | @ended after turn later hends hsilent =>
      obtain ⟨hexchanges, hchunks⟩ := exchangesOf_silent hsilent
      have hchunk : chunksOf (turn :: later) = turn.chunk?.toList ++ chunksOf later := by
        unfold chunksOf
        rw [List.filterMap_cons]
        cases turn.chunk? <;> rfl
      rw [hchunk, hchunks, hends.chunk?_eq]
      show _ = (turn.exchanges ++ exchangesOf later).filterMap (·.chunk?)
      rw [hexchanges, List.append_nil, List.append_nil]

/-- After a turn that returns no chunk with a continuation token, all turns are silent. -/
theorem Course.isSilent_of_ended {turns : List Turn} (h : l.Course after turns) :
    ∀ before turn later, turns = before ++ turn :: later → turn.goesOn = false →
      ∀ t ∈ later, t.IsSilent := by
  induction h with
  | unasked =>
      intro before turn later hsplit _
      exact absurd hsplit.symm (List.append_ne_nil_of_right_ne_nil _ (List.cons_ne_nil _ _))
  | @page after chunk token rest hnext hadvances _ ih =>
      intro before turn later hsplit hends
      rcases List.cons_eq_append_iff.1 hsplit with ⟨rfl, hturn⟩ | ⟨before, rfl, hrest⟩
      · -- a page with a token goes on
        obtain ⟨rfl, -⟩ := List.cons_eq_cons.1 hturn
        unfold Turn.goesOn Turn.chunk? at hends
        rw [Option.any_some, hnext] at hends
        cases hends
      · exact ih before turn later hrest hends
  | @ended after last rest _ hsilent =>
      intro before turn later hsplit _
      rcases List.cons_eq_append_iff.1 hsplit with ⟨rfl, hturn⟩ | ⟨before, rfl, hrest⟩
      · obtain ⟨-, rfl⟩ := List.cons_eq_cons.1 hturn
        exact hsilent
      · intro t ht
        exact hsilent t (hrest ▸ List.mem_append_right before (List.mem_cons_of_mem turn ht))

/-- For any answers of the store and any changes between the calls, every call on a new listing
ends, and the turns follow its course. Each call sends at most one request: the first for the page
without a token, and each later one for the page after the chunk before it. The chunks returned are
those of the well-formed answers, in order, and after a call that returns no chunk with a
continuation token no further request is sent. -/
theorem turns_take_their_course (backend : Backend σ) (under : Option String) (isRecursive : Bool)
    (pageSize : Value) (cancel : Option Token) (changes : List (σ → σ)) (s : σ) :
    let l := start under isRecursive pageSize cancel
    let turns := l.turns backend changes s
    turns.length = changes.length ∧
      l.Course none turns ∧
      (∀ turn ∈ turns, turn.exchanges.length ≤ 1) ∧
      (exchangesOf turns).map (·.request) <+:
        (none :: (chunksOf turns).map (·.next)).map l.requestAfter ∧
      chunksOf turns = (exchangesOf turns).filterMap (·.chunk?) ∧
      ∀ before turn later, turns = before ++ turn :: later → turn.goesOn = false →
        ∀ t ∈ later, t.IsSilent := by
  intro l turns
  obtain ⟨hlength, hcourse⟩ := course_turns backend changes l s rfl
  exact ⟨hlength, hcourse, hcourse.length_exchanges, hcourse.requests, hcourse.chunksOf_eq,
    hcourse.isSilent_of_ended⟩

end Listing

end BucketTree
