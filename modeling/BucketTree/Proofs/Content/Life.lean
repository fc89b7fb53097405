import BucketTree.Proofs.Content.Orders
import BucketTree.Proofs.Store.Schedule

/-!
# The life of a writer

A writer is given orders, for its buffer or to upload, and then comes to an end: it is closed,
aborted, left by a fault, or dropped. `Writer.live` performs a whole life on a store.

To its caller a writer behaves as a list of bytes, and to the store it sends an upload of that list
at each `sync` and at a closing end, and nothing else. This holds as long as the buffer refuses no
order, which is the case when every position and size that the orders reach fits into memory. The
size at which the buffer moves to disk makes no difference.
-/

set_option autoImplicit false

namespace BucketTree.Writer

/-! ## Lives -/

/-- The ends of a writer. -/
inductive Ending where
  | close
  | abort
  /-- A fault leaves the scope of the writer. -/
  | leave (fault : Fault)
  /-- The last reference to the writer is gone. -/
  | drop

/-- Performs an ending. A dropped writer is aborted, and the fault of that is ignored. -/
def Ending.perform (w : Writer) : Ending → Program (Except Fault Unit × Writer)
  | .close => w.close
  | .abort => return (w.abort.1.mapError .misuse, w.abort.2)
  | .leave fault => w.scope [] (some fault)
  | .drop => return (.ok (), w.abort.2)

/-- The observable part of the life of a writer. -/
structure Life where
  outcomes : List (Except Fault Answer)
  /-- The writer before its ending. -/
  last : Writer
  outcome : Except Fault Unit
  /-- The writer after its ending. -/
  ended : Writer

/-- Performs a list of orders and then an ending. -/
def live (orders : List Order) (ending : Ending) (w : Writer) : Program Life := do
  let (outcomes, last) ← Order.performAll orders w
  let (outcome, ended) ← ending.perform last
  return ⟨outcomes, last, outcome, ended⟩

/-- The buffer accepted the initial data, refused no order, and still tells its size before the
ending. -/
structure Life.IsCalm (life : Life) (data : Bytes) (maxSize : Int) : Prop where
  started : ((Spool.empty maxSize).write data).1 = .ok ()
  served : ∀ outcome ∈ life.outcomes, ∀ misuse, outcome ≠ .error (.misuse misuse)
  sized : ∃ count, life.last.size = .ok count

section Bytes

variable {σ : Type} (backend : Backend σ) (view : σ → Bucket) (key : Key)

/-- The outcome of an ending for a list of bytes, and the store afterwards. -/
inductive Ending.Does (bytes : Bytes) (s : σ) : Ending → Except Fault Unit → σ → Prop
  | close {outcome : Except Fault Unit} {s' : σ}
      (h : Uploads backend view key bytes s outcome s') : Does bytes s .close outcome s'
  | abort : Does bytes s .abort (.ok ()) s
  | leave (fault : Fault) : Does bytes s (.leave fault) (.error fault) s
  | drop : Does bytes s .drop (.ok ()) s

/-- The outcomes and the store are those of the list of bytes, and the writer is closed at the
end. -/
structure Life.IsOfBytes (life : Life) (data : Bytes) (orders : List Order) (ending : Ending)
    (s s' : σ) : Prop where
  does : ∃ s₁, Order.DoesAll backend view key orders data s life.outcomes s₁ ∧
    ending.Does backend view key (Order.afterAll orders data) s₁ life.outcome s'
  tell_eq : life.last.tell = .ok (Order.afterAll orders data).length
  close_eq : life.ended.close = pure (.ok (), life.ended)
  abort_eq : life.ended.abort = (.ok (), life.ended)

end Bytes

/-! ## Endings on a store -/

section Endings

variable {σ : Type} {backend : Backend σ} {view : σ → Bucket} {fails : Request → Fault → Prop}
variable {w : Writer} {key : Key} {bytes : Bytes}

/-- An open writer that a fault leaves is discarded. -/
theorem scope_of_isOpen (h : w.isClosed = false) (fault : Fault) :
    w.scope [] (some fault) = pure (w.discardFor fault) := by
  unfold scope
  rw [h, if_neg Bool.false_ne_true]
  rfl

/-- Every ending halts. -/
theorem Ending.halts_perform (ending : Ending) (w : Writer) : (ending.perform w).Halts := by
  cases ending with
  | close => exact halts_close w
  | abort => exact Program.halts_pure _
  | leave fault =>
      show (w.scope [] (some fault)).Halts
      unfold scope
      split
      · exact Program.halts_pure _
      · exact Program.halts_pure _
  | drop => exact Program.halts_pure _

/-- An ending of a writer whose buffer tells its size closes the writer, and does what it does for
the list of bytes. -/
theorem Holds.ends (hf : backend.Follows view (Bucket.environment fails)) {count : Nat}
    (h : w.Holds key bytes) (hsize : w.size = .ok count) (ending : Ending) (s : σ) :
    ∃ outcome w' s', (ending.perform w).run backend s = (some (outcome, w'), s') ∧
      w'.isClosed = true ∧
      ending.Does backend view key bytes s outcome s' := by
  obtain ⟨w', habort, hclosed⟩ := h.abort hsize
  cases ending with
  | close =>
      obtain ⟨outcome, w', s', hrun, hclosed, huploads⟩ := h.close hf hsize s
      exact ⟨outcome, w', s', hrun, hclosed, .close huploads⟩
  | abort =>
      refine ⟨.ok (), w', s, ?_, hclosed, .abort⟩
      show (some (w.abort.1.mapError Fault.misuse, w.abort.2), s) = _
      rw [habort]
      rfl
  | leave fault =>
      refine ⟨.error fault, w', s, ?_, hclosed, .leave fault⟩
      show (w.scope [] (some fault)).run backend s = _
      rw [scope_of_isOpen h.isOpen]
      unfold discardFor
      rw [habort]
      rfl
  | drop =>
      refine ⟨.ok (), w', s, ?_, hclosed, .drop⟩
      show (some (Except.ok (), w.abort.2), s) = _
      rw [habort]

end Endings

/-! ## Two lives side by side

Two writers that hold the same bytes may lie in different places. What they upload differs in
nothing that a store sees. -/

section Twins

variable {schedule : Schedule} {name : String} {v v' w w' : Writer} {key : Key} {bytes : Bytes}
variable {s s' t t' : Schedule.State} {m n : Nat}

/-- Two writers that hold the same bytes upload with the same outcome. -/
theorem upload_looksLike (hblind : schedule.IsBlind) (hv : v.Holds key bytes)
    (hw : w.Holds key bytes) (hm : v.size = .ok m) (hn : w.size = .ok n)
    (hst : s.LooksLike name t) {outcome outcome' : Except Fault Unit}
    (hrun : v.upload.run (schedule.backend name) s = (some (outcome, v'), s'))
    (hrun' : w.upload.run (schedule.backend name) t = (some (outcome', w'), t')) :
    outcome = outcome' ∧ s'.LooksLike name t' := by
  have huploads := (hv.carries_uploaded hm).looksLike (hw.carries_uploaded hn)
  have halike := Schedule.answer_put_looksLike hblind hst huploads key
  rcases hs : schedule.answer name (.put key v.uploaded) s with ⟨o, s₁⟩
  rcases ht : schedule.answer name (.put key w.uploaded) t with ⟨o', t₁⟩
  rw [hs, ht] at halike
  obtain ⟨houtcome, hstates⟩ := halike
  -- the outcomes agree up to the block, so one is a fault just when the other is
  rw [← hv.key_eq] at hs
  rw [← hw.key_eq] at ht
  cases o with
  | error fault =>
      cases o' with
      | ok block => cases houtcome
      | error fault' =>
          cases houtcome
          rw [upload_of_error hm hs] at hrun
          rw [upload_of_error hn ht] at hrun'
          cases hrun
          cases hrun'
          rw [hv.key_eq, hw.key_eq]
          exact ⟨rfl, hstates⟩
  | ok block =>
      cases o' with
      | error fault => cases houtcome
      | ok block' =>
          rw [upload_of_ok hm hs] at hrun
          rw [upload_of_ok hn ht] at hrun'
          cases hrun
          cases hrun'
          exact ⟨rfl, hstates⟩

/-- An order has the same outcome for two writers that hold the same bytes. -/
theorem perform_looksLike (hblind : schedule.IsBlind) (hv : v.Holds key bytes)
    (hw : w.Holds key bytes) (hst : s.LooksLike name t) {order : Order}
    (hlegal : order.IsLegal bytes) {outcome outcome' : Except Fault Answer}
    (hrun : (order.perform v).run (schedule.backend name) s = (some (outcome, v'), s'))
    (hrun' : (order.perform w).run (schedule.backend name) t = (some (outcome', w'), t'))
    (hserved : ∀ misuse, outcome ≠ .error (.misuse misuse))
    (hserved' : ∀ misuse, outcome' ≠ .error (.misuse misuse)) :
    outcome = outcome' ∧ s'.LooksLike name t' := by
  have hf := schedule.backend_follows_any name
  cases order with
  | buffer command =>
      -- each outcome is the answer of the list of bytes, and there is one such list
      obtain ⟨-, hdoes⟩ := hv.perform hf hlegal hrun hserved
      obtain ⟨-, hdoes'⟩ := hw.perform hf hlegal hrun' hserved'
      cases hdoes
      cases hdoes'
      exact ⟨rfl, hst⟩
  | sync =>
      obtain ⟨m, hm⟩ := size_of_sync hv hrun hserved
      obtain ⟨n, hn⟩ := size_of_sync hw hrun' hserved'
      obtain ⟨⟨o, v₁⟩, s₁, hv₁⟩ := (halts_upload v).exists_run (schedule.backend name) s
      obtain ⟨⟨o', w₁⟩, t₁, hw₁⟩ := (halts_upload w).exists_run (schedule.backend name) t
      obtain ⟨rfl, hstates⟩ := upload_looksLike hblind hv hw hm hn hst hv₁ hw₁
      rw [← sync_of_isOpen hv.isOpen] at hv₁
      rw [← sync_of_isOpen hw.isOpen] at hw₁
      rw [run_sync hv₁] at hrun
      rw [run_sync hw₁] at hrun'
      cases hrun
      cases hrun'
      exact ⟨rfl, hstates⟩

/-- A list of orders has the same outcomes for two writers that hold the same bytes. -/
theorem performAll_looksLike (hblind : schedule.IsBlind) {orders : List Order}
    (hv : v.Holds key bytes) (hw : w.Holds key bytes) (hst : s.LooksLike name t)
    (hlegal : Order.Along Order.IsLegal orders bytes)
    {outcomes outcomes' : List (Except Fault Answer)}
    (hrun : (Order.performAll orders v).run (schedule.backend name) s =
      (some (outcomes, v'), s'))
    (hrun' : (Order.performAll orders w).run (schedule.backend name) t =
      (some (outcomes', w'), t'))
    (hserved : ∀ outcome ∈ outcomes, ∀ misuse, outcome ≠ .error (.misuse misuse))
    (hserved' : ∀ outcome ∈ outcomes', ∀ misuse, outcome ≠ .error (.misuse misuse)) :
    outcomes = outcomes' ∧ s'.LooksLike name t' := by
  have hf := schedule.backend_follows_any name
  induction orders generalizing v w bytes s t outcomes outcomes' with
  | nil =>
      cases hrun
      cases hrun'
      exact ⟨rfl, hst⟩
  | cons order rest ih =>
      obtain ⟨o, v₁, s₁, os, rfl, hfirst, hothers⟩ := Order.of_run_cons hrun
      obtain ⟨o', w₁, t₁, os', rfl, hfirst', hothers'⟩ := Order.of_run_cons hrun'
      obtain ⟨hhead, htail⟩ := List.forall_mem_cons.1 hserved
      obtain ⟨hhead', htail'⟩ := List.forall_mem_cons.1 hserved'
      obtain ⟨rfl, hstates⟩ :=
        perform_looksLike hblind hv hw hst hlegal.1 hfirst hfirst' hhead hhead'
      -- both hold the same bytes again, so the stores go on alike
      obtain ⟨hv₁, -⟩ := hv.perform hf hlegal.1 hfirst hhead
      obtain ⟨hw₁, -⟩ := hw.perform hf hlegal.1 hfirst' hhead'
      obtain ⟨rfl, hend⟩ := ih hv₁ hw₁ hstates hlegal.2 hothers hothers' htail htail'
      exact ⟨rfl, hend⟩

/-- An ending has the same outcome for two writers that hold the same bytes. -/
theorem ends_looksLike (hblind : schedule.IsBlind) (hv : v.Holds key bytes)
    (hw : w.Holds key bytes) (hm : v.size = .ok m) (hn : w.size = .ok n)
    (hst : s.LooksLike name t) {ending : Ending} {outcome outcome' : Except Fault Unit}
    (hrun : (ending.perform v).run (schedule.backend name) s = (some (outcome, v'), s'))
    (hrun' : (ending.perform w).run (schedule.backend name) t = (some (outcome', w'), t')) :
    outcome = outcome' ∧ s'.LooksLike name t' := by
  have hf := schedule.backend_follows_any name
  obtain ⟨v₁, hv₁, -⟩ := hv.abort hm
  obtain ⟨w₁, hw₁, -⟩ := hw.abort hn
  cases ending with
  | close =>
      obtain ⟨o, v₁, s₁, hv₁, -, hvend, -⟩ := hv.upload hf.stores hm s
      obtain ⟨o', w₁, t₁, hw₁, -, hwend, -⟩ := hw.upload hf.stores hn t
      obtain ⟨rfl, hstates⟩ := upload_looksLike hblind hv hw hm hn hst hv₁ hw₁
      obtain ⟨v₂, hv₂, -⟩ := run_close hv.isOpen hv₁ hvend
      obtain ⟨w₂, hw₂, -⟩ := run_close hw.isOpen hw₁ hwend
      change v.close.run _ s = _ at hrun
      change w.close.run _ t = _ at hrun'
      rw [hv₂] at hrun
      rw [hw₂] at hrun'
      cases hrun
      cases hrun'
      exact ⟨rfl, hstates⟩
  | abort =>
      change (some (v.abort.1.mapError Fault.misuse, v.abort.2), s) = _ at hrun
      change (some (w.abort.1.mapError Fault.misuse, w.abort.2), t) = _ at hrun'
      rw [hv₁] at hrun
      rw [hw₁] at hrun'
      cases hrun
      cases hrun'
      exact ⟨rfl, hst⟩
  | leave fault =>
      change (v.scope [] (some fault)).run _ s = _ at hrun
      change (w.scope [] (some fault)).run _ t = _ at hrun'
      rw [scope_of_isOpen hv.isOpen, discardFor, hv₁] at hrun
      rw [scope_of_isOpen hw.isOpen, discardFor, hw₁] at hrun'
      cases hrun
      cases hrun'
      exact ⟨rfl, hst⟩
  | drop =>
      cases hrun
      cases hrun'
      exact ⟨rfl, hst⟩

end Twins

/-! ## Whole lives -/

section Lives

variable {σ : Type} {backend : Backend σ} {w last ended : Writer} {s s₁ s' : σ}
variable {orders : List Order} {ending : Ending}

theorem run_live {outcomes : List (Except Fault Answer)} {outcome : Except Fault Unit}
    (horders : (Order.performAll orders w).run backend s = (some (outcomes, last), s₁))
    (hending : (ending.perform last).run backend s₁ = (some (outcome, ended), s')) :
    (live orders ending w).run backend s = (some ⟨outcomes, last, outcome, ended⟩, s') := by
  unfold live
  rw [Program.run_bind, horders]
  show (ending.perform last >>= _).run backend s₁ = _
  rw [Program.run_bind, hending]
  rfl

/-- Every life runs its orders and then its ending. -/
theorem exists_live (backend : Backend σ) (orders : List Order) (ending : Ending) (w : Writer)
    (s : σ) :
    ∃ life s₁ s', (live orders ending w).run backend s = (some life, s') ∧
      (Order.performAll orders w).run backend s = (some (life.outcomes, life.last), s₁) ∧
      (ending.perform life.last).run backend s₁ = (some (life.outcome, life.ended), s') := by
  obtain ⟨⟨outcomes, last⟩, s₁, horders⟩ := (Order.halts_performAll orders w).exists_run backend s
  obtain ⟨⟨outcome, ended⟩, s', hending⟩ := (ending.halts_perform last).exists_run backend s₁
  exact ⟨_, s₁, s', run_live horders hending, horders, hending⟩

end Lives

/-- A life is calm when the initial data and everything that the orders reach fit into memory. -/
theorem isCalm_of_room {σ : Type} {backend : Backend σ} {view : σ → Bucket}
    {fails : Request → Fault → Prop} (hf : backend.Follows view (Bucket.environment fails))
    {key : Key} {data : Bytes} {maxSize : Int} {orders : List Order} {s s₁ : σ} {life : Life}
    (hlegal : Order.Along Order.IsLegal orders data)
    (hdata : (data.length : Int) < Word.memoryLimit) (hroom : Order.Along Order.Fits orders data)
    (horders : (Order.performAll orders (start key data maxSize)).run backend s =
      (some (life.outcomes, life.last), s₁)) :
    life.IsCalm data maxSize := by
  have hstarted := start_of_room maxSize hdata
  obtain ⟨hholds, hinOrder⟩ := holds_start key hstarted
  have hstart : (start key data maxSize).HasRoom key data := ⟨hholds, hinOrder, hdata⟩
  obtain ⟨hserved, hlast⟩ := hstart.performAll hf hlegal hroom horders
  exact ⟨hstarted, hserved, _, hlast.size⟩

/-- A calm life is that of a list of bytes. -/
theorem Life.IsCalm.isOfBytes {σ : Type} {backend : Backend σ} {view : σ → Bucket}
    {fails : Request → Fault → Prop} (hf : backend.Follows view (Bucket.environment fails))
    {key : Key} {data : Bytes} {maxSize : Int} {orders : List Order} {ending : Ending}
    {s s₁ s' : σ} {life : Life} (hcalm : life.IsCalm data maxSize)
    (hlegal : Order.Along Order.IsLegal orders data)
    (horders : (Order.performAll orders (start key data maxSize)).run backend s =
      (some (life.outcomes, life.last), s₁))
    (hending : (ending.perform life.last).run backend s₁ =
      (some (life.outcome, life.ended), s')) :
    life.last.Holds key (Order.afterAll orders data) ∧
      life.IsOfBytes backend view key data orders ending s s' := by
  obtain ⟨hstarted, hserved, count, hsized⟩ := hcalm
  obtain ⟨hlast, hdoes⟩ := (holds_start key hstarted).1.performAll hf hlegal horders hserved
  obtain ⟨outcome, ended, t, hrun, hclosed, hends⟩ := hlast.ends hf hsized ending s₁
  rw [hrun] at hending
  obtain ⟨hresult, rfl⟩ := Prod.mk.inj hending
  obtain ⟨rfl, rfl⟩ := Prod.mk.inj (Option.some.inj hresult)
  exact ⟨hlast, ⟨s₁, hdoes, hends⟩, hlast.tell, close_of_isClosed hclosed,
    abort_of_isClosed hclosed⟩

/-- The life of a writer is that of a list of bytes, for any orders and any ending. Every life ends,
and it is calm when the initial data and everything that the orders reach fit into memory. The
outcomes and the store of a calm life are those of the list of bytes; and on a store that does not
look at memory blocks, a calm life with another size at which the buffer moves to disk has the same
outcomes and leaves the same contents. -/
theorem live_bytes (schedule : Schedule) (name : String) (key : Key) (data : Bytes)
    (maxSize : Int) (orders : List Order) (ending : Ending)
    (hlegal : Order.Along Order.IsLegal orders data) (s : Schedule.State) :
    ∃ life s', (live orders ending (start key data maxSize)).run (schedule.backend name) s =
        (some life, s') ∧
      ((data.length : Int) < Word.memoryLimit → Order.Along Order.Fits orders data →
        life.IsCalm data maxSize) ∧
      (life.IsCalm data maxSize →
        life.IsOfBytes (schedule.backend name) (fun s => s.memory.bucket name) key data orders
          ending s s') ∧
      ∀ (maxSize' : Int) (life' : Life) (t' : Schedule.State), schedule.IsBlind →
        (live orders ending (start key data maxSize')).run (schedule.backend name) s =
          (some life', t') →
        life.IsCalm data maxSize → life'.IsCalm data maxSize' →
        life'.outcomes = life.outcomes ∧ life'.outcome = life.outcome ∧
          (t'.memory.bucket name).contents = (s'.memory.bucket name).contents := by
  have hf := schedule.backend_follows_any name
  obtain ⟨life, s₁, s', hlife, horders, hending⟩ :=
    exists_live (schedule.backend name) orders ending (start key data maxSize) s
  refine ⟨life, s', hlife, fun hdata hroom => isCalm_of_room hf hlegal hdata hroom horders,
    fun hcalm => (hcalm.isOfBytes hf hlegal horders hending).2, ?_⟩
  intro maxSize' life' t' hblind hlife' hcalm hcalm'
  obtain ⟨life'', t₁, t'', hlife'', horders', hending'⟩ :=
    exists_live (schedule.backend name) orders ending (start key data maxSize') s
  rw [hlife'] at hlife''
  obtain ⟨hresult, rfl⟩ := Prod.mk.inj hlife''
  obtain rfl := Option.some.inj hresult
  obtain ⟨hlast, -⟩ := hcalm.isOfBytes hf hlegal horders hending
  obtain ⟨hlast', -⟩ := hcalm'.isOfBytes hf hlegal horders' hending'
  obtain ⟨hstarted, hserved, count, hsized⟩ := hcalm
  obtain ⟨hstarted', hserved', count', hsized'⟩ := hcalm'
  obtain ⟨houtcomes, hstates⟩ := performAll_looksLike hblind (holds_start key hstarted').1
    (holds_start key hstarted).1 (.refl name s) hlegal horders' horders hserved' hserved
  obtain ⟨houtcome, hend⟩ :=
    ends_looksLike hblind hlast' hlast hsized' hsized hstates hending' hending
  exact ⟨houtcomes, houtcome, hend.memory.contents_eq⟩

/-- The schedule under which the first request fails. -/
def unreachable : Schedule where
  raised requests := if requests.length = 1 then some (.remote none "unreachable") else none
  isCancelled _ _ := false

/-- A writer whose first upload fails uploads all of its bytes at the next sync. -/
theorem live_bytes_unreachable :
    let orders : List Order := [.buffer (.writeAt [9] 3), .sync, .buffer (.truncate (some 1)),
      .buffer (.write [7, 8]), .sync]
    Order.Along Order.IsLegal orders [1, 2] ∧
      ∃ life s', (live orders .close (start "notes" [1, 2] 0)).run (unreachable.backend "b")
          ⟨.empty ⟨0, 1⟩, []⟩ = (some life, s') ∧
        life.IsCalm [1, 2] 0 ∧ life.last.tell = .ok 3 ∧
        (s'.memory.bucket "b").contents "notes" = some [1, 7, 8] := by
  intro orders
  have hlegal : Order.Along Order.IsLegal orders [1, 2] := by decide
  have hroom : Order.Along Order.Fits orders [1, 2] := by decide
  obtain ⟨life, s', hrun, hcalm, hbytes, -⟩ :=
    live_bytes unreachable "b" "notes" [1, 2] 0 orders .close hlegal ⟨.empty ⟨0, 1⟩, []⟩
  have hlife := hcalm (by decide) hroom
  refine ⟨hlegal, life, s', hrun, hlife, (hbytes hlife).tell_eq, ?_⟩
  rw [← (Prod.mk.inj hrun).2]
  decide +kernel

end BucketTree.Writer
