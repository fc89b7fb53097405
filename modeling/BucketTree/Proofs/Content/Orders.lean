import BucketTree.Proofs.Content.Upload

/-!
# Orders to a writer

A writer is given orders, for its buffer or to upload. `Writer.Command.answer` and
`Writer.Command.after` are the answer of a list of bytes to an order for the buffer and the list
afterwards. A writer that holds a list of bytes behaves as the list (`Writer.Holds.performAll`) as
long as its buffer refuses no order, which is the case when every position and size that the orders
reach fits into memory (`Writer.HasRoom.performAll`).
-/

set_option autoImplicit false

namespace BucketTree.Writer

/-! ## Orders -/

/-- The orders for the buffer of an open writer. -/
inductive Command where
  | write (data : Bytes)
  | writeAt (data : Bytes) (offset : Nat)
  | readAt (offset length : Nat)
  /-- Truncates to a size, or to the position when no size is given. -/
  | truncate (limit : Option Nat)
  | size
  | tell

/-- The orders to a writer. -/
inductive Order where
  | buffer (command : Command)
  | sync

/-- The answers of a writer. -/
inductive Answer where
  | number (n : Int)
  | content (bytes : Bytes)
  | done

namespace Command

/-- The answer of a list of bytes. -/
def answer (bytes : Bytes) : Command → Answer
  | .write data => .number data.length
  | .writeAt data _ => .number data.length
  | .readAt offset length => .content ((bytes.drop offset).take length)
  | .truncate limit => .number (limit.getD bytes.length)
  | .size => .number bytes.length
  | .tell => .number bytes.length

/-- The list of bytes after the command. -/
def after (bytes : Bytes) : Command → Bytes
  | .write data => bytes ++ data
  | .writeAt data offset => bytes.overlay offset data
  | .truncate limit => bytes.take (limit.getD bytes.length)
  | _ => bytes

/-- A truncation does not exceed the length of the list. -/
def IsLegal (bytes : Bytes) : Command → Prop
  | .truncate limit => ∀ n ∈ limit, n ≤ bytes.length
  | _ => True

/-- The largest position or size that the command reaches. -/
def reach (bytes : Bytes) : Command → Nat
  | .write data => bytes.length + data.length
  | .writeAt data offset => offset + data.length
  | .readAt offset length => max offset length
  | _ => 0

/-- The outcome of an operation on the buffer as an answer. -/
def told {α : Type} (f : α → Answer) (result : Except Misuse α × Writer) :
    Except Misuse Answer × Writer := (result.1.map f, result.2)

/-- The command on the buffer of a writer. -/
def act (w : Writer) : Command → Except Misuse Answer × Writer
  | .write data => told (fun count : Nat => .number count) (w.write data)
  | .writeAt data offset => told (fun count : Nat => .number count) (w.writeAt data offset)
  | .readAt offset length => told .content (w.readAt offset length)
  | .truncate limit => told .number (w.truncate (limit.map Int.ofNat))
  | .size => told (fun count : Nat => .number count) (w.size, w)
  | .tell => told (fun count : Nat => .number count) (w.tell, w)

end Command

namespace Order

/-- The list of bytes after the order; a sync leaves it alone. -/
def after (bytes : Bytes) : Order → Bytes
  | .buffer command => command.after bytes
  | .sync => bytes

/-- The order, if it is a truncation, does not exceed the length of the list. -/
def IsLegal (bytes : Bytes) : Order → Prop
  | .buffer command => command.IsLegal bytes
  | .sync => True

/-- Everything that the order reaches fits into memory. -/
def Fits (bytes : Bytes) : Order → Prop
  | .buffer command => (command.reach bytes : Int) < Word.memoryLimit
  | .sync => True

/-- Performs an order. -/
def perform (w : Writer) : Order → Program (Except Fault Answer × Writer)
  | .buffer command => return ((command.act w).1.mapError .misuse, (command.act w).2)
  | .sync => do
      let (outcome, w) ← w.sync
      return (outcome.map fun _ => .done, w)

/-- Performs a list of orders. -/
def performAll : List Order → Writer → Program (List (Except Fault Answer) × Writer)
  | [], w => return ([], w)
  | order :: rest, w => do
      let (outcome, w) ← order.perform w
      let (outcomes, w) ← performAll rest w
      return (outcome :: outcomes, w)

/-- The list of bytes after a list of orders. -/
def afterAll (orders : List Order) (bytes : Bytes) : Bytes :=
  orders.foldl (fun bytes order => order.after bytes) bytes

/-- The predicate `p` holds of each order and the list of bytes at its time. -/
def Along (p : Bytes → Order → Prop) : List Order → Bytes → Prop
  | [], _ => True
  | order :: rest, bytes => p bytes order ∧ Along p rest (order.after bytes)

instance (bytes : Bytes) : DecidablePred (Order.IsLegal bytes)
  | .buffer (.truncate limit) => inferInstanceAs (Decidable (∀ n ∈ limit, n ≤ bytes.length))
  | .buffer (.write _) => isTrue trivial
  | .buffer (.writeAt _ _) => isTrue trivial
  | .buffer (.readAt _ _) => isTrue trivial
  | .buffer .size => isTrue trivial
  | .buffer .tell => isTrue trivial
  | .sync => isTrue trivial

instance (bytes : Bytes) : DecidablePred (Order.Fits bytes)
  | .buffer command =>
      inferInstanceAs (Decidable ((command.reach bytes : Int) < Word.memoryLimit))
  | .sync => isTrue trivial

instance decidableAlong {p : Bytes → Order → Prop} [∀ bytes, DecidablePred (p bytes)] :
    ∀ (orders : List Order) (bytes : Bytes), Decidable (Along p orders bytes)
  | [], _ => isTrue trivial
  | order :: rest, bytes =>
      have := decidableAlong (p := p) rest (order.after bytes)
      inferInstanceAs (Decidable (p bytes order ∧ Along p rest (order.after bytes)))

end Order

/-! ## What a list of bytes does -/

section Bytes

variable {σ : Type} (backend : Backend σ) (view : σ → Bucket) (key : Key)

/-- The outcome of an order for a list of bytes, and the store afterwards. An order for the buffer
leaves the store alone. -/
inductive Order.Does (bytes : Bytes) (s : σ) : Order → Except Fault Answer → σ → Prop
  | buffer (command : Command) :
      Does bytes s (.buffer command) (.ok (command.answer bytes)) s
  | sync {outcome : Except Fault Unit} {s' : σ}
      (h : Uploads backend view key bytes s outcome s') :
      Does bytes s .sync (outcome.map fun _ => .done) s'

/-- The outcomes of a list of orders, and the store after them. -/
inductive Order.DoesAll :
    List Order → Bytes → σ → List (Except Fault Answer) → σ → Prop
  | nil {bytes : Bytes} {s : σ} : DoesAll [] bytes s [] s
  | cons {order : Order} {rest : List Order} {bytes : Bytes} {s s' s'' : σ}
      {outcome : Except Fault Answer} {outcomes : List (Except Fault Answer)}
      (h : order.Does backend view key bytes s outcome s')
      (hrest : DoesAll rest (order.after bytes) s' outcomes s'') :
      DoesAll (order :: rest) bytes s (outcome :: outcomes) s''

end Bytes

/-! ## The buffer -/

section Buffer

variable {w w' : Writer} {key : Key} {bytes : Bytes} {command : Command} {answer : Answer}

/-- An operation with an answer has succeeded. -/
theorem Command.told_eq_ok {α : Type} {f : α → Answer} {result : Except Misuse α × Writer}
    (h : Command.told f result = (.ok answer, w')) : ∃ x, result = (.ok x, w') ∧ answer = f x := by
  obtain ⟨_ | x, v⟩ := result
  · cases h
  · cases h
    exact ⟨x, rfl, rfl⟩

/-- A command that the buffer does not refuse has the answer of the list of bytes, and the writer
holds the list after the command. -/
theorem Holds.act (h : w.Holds key bytes) (hlegal : command.IsLegal bytes)
    (hact : command.act w = (.ok answer, w')) :
    answer = command.answer bytes ∧ w'.Holds key (command.after bytes) := by
  cases command with
  | write data =>
      obtain ⟨count, hwrite, rfl⟩ := Command.told_eq_ok hact
      obtain ⟨rfl, hholds⟩ := h.write hwrite
      exact ⟨rfl, hholds⟩
  | writeAt data offset =>
      obtain ⟨count, hwrite, rfl⟩ := Command.told_eq_ok hact
      obtain ⟨rfl, hholds, -⟩ := h.writeAt hwrite
      exact ⟨rfl, hholds⟩
  | readAt offset length =>
      obtain ⟨data, hread, rfl⟩ := Command.told_eq_ok hact
      obtain ⟨rfl, hholds, -⟩ := h.readAt hread
      exact ⟨rfl, hholds⟩
  | truncate limit =>
      obtain ⟨told, htruncate, rfl⟩ := Command.told_eq_ok hact
      obtain ⟨rfl, hholds, -⟩ := h.truncate hlegal htruncate
      exact ⟨rfl, hholds⟩
  | size =>
      obtain ⟨count, htold, rfl⟩ := Command.told_eq_ok hact
      obtain ⟨hsize, rfl⟩ := Prod.mk.inj htold
      obtain ⟨rfl, -⟩ := h.size hsize
      exact ⟨rfl, h⟩
  | tell =>
      obtain ⟨count, htold, rfl⟩ := Command.told_eq_ok hact
      obtain ⟨htell, rfl⟩ := Prod.mk.inj htold
      rw [h.tell] at htell
      cases htell
      exact ⟨rfl, h⟩

/-- A command whose reach fits into memory is not refused. -/
theorem HasRoom.act (h : w.HasRoom key bytes) (hlegal : command.IsLegal bytes)
    (hroom : (command.reach bytes : Int) < Word.memoryLimit) :
    ∃ w', command.act w = (.ok (command.answer bytes), w') ∧
      w'.HasRoom key (command.after bytes) := by
  cases command with
  | write data =>
      obtain ⟨w', hwrite, hholds⟩ := h.write hroom
      refine ⟨w', ?_, hholds⟩
      show Command.told _ (w.write data) = _
      rw [hwrite]
      rfl
  | writeAt data offset =>
      obtain ⟨w', hwrite, hholds⟩ := h.writeAt hroom
      refine ⟨w', ?_, hholds⟩
      show Command.told _ (w.writeAt data offset) = _
      rw [hwrite]
      rfl
  | readAt offset length =>
      have hreach : ((max offset length : Nat) : Int) < Word.memoryLimit := hroom
      have hoffset : (offset : Int) < Word.memoryLimit := by omega
      have hlength : (length : Int) < Word.memoryLimit := by omega
      obtain ⟨w', hread, hholds⟩ := h.readAt hoffset hlength
      refine ⟨w', ?_, hholds⟩
      show Command.told _ (w.readAt offset length) = _
      rw [hread]
      rfl
  | truncate limit =>
      obtain ⟨w', htruncate, hholds⟩ := h.truncate hlegal
      refine ⟨w', ?_, hholds⟩
      show Command.told _ (w.truncate _) = _
      rw [htruncate]
      rfl
  | size =>
      refine ⟨w, ?_, h⟩
      show Command.told _ (w.size, w) = _
      rw [h.size]
      rfl
  | tell =>
      refine ⟨w, ?_, h⟩
      show Command.told _ (w.tell, w) = _
      rw [h.holds.tell]
      rfl

end Buffer

/-! ## Orders on a store -/

section Runs

variable {σ : Type} {backend : Backend σ} {view : σ → Bucket} {fails : Request → Fault → Prop}
variable {w w' : Writer} {key : Key} {bytes : Bytes} {s s' : σ}
variable {order : Order} {outcome : Except Fault Answer} {outcomes : List (Except Fault Answer)}

/-- The fault of an upload is no misuse. -/
theorem Uploads.map_ne_misuse {outcome : Except Fault Unit}
    (h : Uploads backend view key bytes s outcome s') (misuse : Misuse) :
    (outcome.map fun _ => Answer.done) ≠ .error (.misuse misuse) := by
  cases h with
  | stored => nofun
  | failed => nofun

theorem run_sync {outcome : Except Fault Unit}
    (h : w.sync.run backend s = (some (outcome, w'), s')) :
    (Order.sync.perform w).run backend s = (some (outcome.map fun _ => .done, w'), s') := by
  show (w.sync >>= _).run backend s = _
  rw [Program.run_bind, h]
  rfl

/-- Every order halts. -/
theorem Order.halts_perform (order : Order) (w : Writer) : (order.perform w).Halts := by
  cases order with
  | buffer command => exact Program.halts_pure _
  | sync => exact (halts_sync w).bind fun r => Program.halts_pure _

theorem Order.halts_performAll (orders : List Order) (w : Writer) :
    (performAll orders w).Halts := by
  induction orders generalizing w with
  | nil => exact Program.halts_pure _
  | cons order rest ih =>
      exact (order.halts_perform w).bind fun r => (ih r.2).bind fun rs => Program.halts_pure _

theorem Order.run_cons {rest : List Order} {w'' : Writer} {s'' : σ}
    (h : (order.perform w).run backend s = (some (outcome, w'), s'))
    (hrest : (performAll rest w').run backend s' = (some (outcomes, w''), s'')) :
    (performAll (order :: rest) w).run backend s = (some (outcome :: outcomes, w''), s'') := by
  show (order.perform w >>= _).run backend s = _
  rw [Program.run_bind, h]
  show (performAll rest w' >>= _).run backend s' = _
  rw [Program.run_bind, hrest]
  rfl

/-- An order for the buffer sends nothing. -/
theorem run_buffer (command : Command) (w : Writer) (backend : Backend σ) (s : σ) :
    (Order.perform w (.buffer command)).run backend s =
      (some ((command.act w).1.mapError .misuse, (command.act w).2), s) := rfl

/-- A run of a list of orders starts with a run of the first one. -/
theorem Order.of_run_cons {rest : List Order} {w'' : Writer} {s'' : σ}
    (hrun : (performAll (order :: rest) w).run backend s = (some (outcomes, w''), s'')) :
    ∃ outcome w' s' others, outcomes = outcome :: others ∧
      (order.perform w).run backend s = (some (outcome, w'), s') ∧
      (performAll rest w').run backend s' = (some (others, w''), s'') := by
  obtain ⟨⟨outcome, w'⟩, s', hfirst⟩ := (order.halts_perform w).exists_run backend s
  obtain ⟨⟨others, v⟩, t, hothers⟩ := (halts_performAll rest w').exists_run backend s'
  rw [run_cons hfirst hothers] at hrun
  cases hrun
  exact ⟨outcome, w', s', others, rfl, hfirst, hothers⟩

/-- A sync that is no misuse found a buffer that tells its size. -/
theorem size_of_sync (h : w.Holds key bytes)
    (hrun : (Order.sync.perform w).run backend s = (some (outcome, w'), s'))
    (hserved : ∀ misuse, outcome ≠ .error (.misuse misuse)) : ∃ count, w.size = .ok count := by
  cases hsize : w.size with
  | ok count => exact ⟨count, rfl⟩
  | error misuse =>
      have hsync : w.sync.run backend s = (some (.error (.misuse misuse), w), s) := by
        rw [sync_of_isOpen h.isOpen, upload_of_size hsize]
      rw [run_sync hsync] at hrun
      cases hrun
      exact absurd rfl (hserved misuse)

/-- An order that the buffer does not refuse does what it does for the list of bytes. -/
theorem Holds.perform (hf : backend.Follows view (Bucket.environment fails))
    (h : w.Holds key bytes) (hlegal : order.IsLegal bytes)
    (hrun : (order.perform w).run backend s = (some (outcome, w'), s'))
    (hserved : ∀ misuse, outcome ≠ .error (.misuse misuse)) :
    w'.Holds key (order.after bytes) ∧
      order.Does backend view key bytes s outcome s' := by
  cases order with
  | buffer command =>
      rw [run_buffer] at hrun
      rcases hact : command.act w with ⟨misuse | answer, v⟩
      · rw [hact] at hrun
        cases hrun
        exact absurd rfl (hserved misuse)
      · rw [hact] at hrun
        cases hrun
        obtain ⟨rfl, hholds⟩ := h.act hlegal hact
        exact ⟨hholds, .buffer command⟩
  | sync =>
      -- an upload that is no misuse was asked of a buffer that tells its size
      obtain ⟨count, hsize⟩ := size_of_sync h hrun hserved
      obtain ⟨outcome, w₁, s₁, hsync, hholds, -, huploads⟩ := h.sync hf hsize s
      rw [run_sync hsync] at hrun
      cases hrun
      exact ⟨hholds, .sync huploads⟩

/-- A list of orders that the buffer does not refuse does what it does for the list of bytes. -/
theorem Holds.performAll (hf : backend.Follows view (Bucket.environment fails))
    {orders : List Order} (h : w.Holds key bytes) (hlegal : Order.Along Order.IsLegal orders bytes)
    (hrun : (Order.performAll orders w).run backend s = (some (outcomes, w'), s'))
    (hserved : ∀ outcome ∈ outcomes, ∀ misuse, outcome ≠ .error (.misuse misuse)) :
    w'.Holds key (Order.afterAll orders bytes) ∧
      Order.DoesAll backend view key orders bytes s outcomes s' := by
  -- the writer after the first order holds what the list has become, which is what `ih` asks for
  induction orders generalizing w bytes s outcomes with
  | nil =>
      cases hrun
      exact ⟨h, .nil⟩
  | cons order rest ih =>
      obtain ⟨outcome, w₁, s₁, others, rfl, hfirst, hothers⟩ := Order.of_run_cons hrun
      obtain ⟨hhead, htail⟩ := List.forall_mem_cons.1 hserved
      obtain ⟨hholds, hdoes⟩ := h.perform hf hlegal.1 hfirst hhead
      obtain ⟨hend, hall⟩ := ih hholds hlegal.2 hothers htail
      exact ⟨hend, .cons hdoes hall⟩

/-- An order that fits into memory is not refused. -/
theorem HasRoom.perform (hf : backend.Follows view (Bucket.environment fails))
    (h : w.HasRoom key bytes) (hlegal : order.IsLegal bytes) (hroom : order.Fits bytes)
    (hrun : (order.perform w).run backend s = (some (outcome, w'), s')) :
    (∀ misuse, outcome ≠ .error (.misuse misuse)) ∧ w'.HasRoom key (order.after bytes) := by
  cases order with
  | buffer command =>
      obtain ⟨v, hact, hholds⟩ := h.act hlegal hroom
      rw [run_buffer, hact] at hrun
      cases hrun
      exact ⟨fun misuse => nofun, hholds⟩
  | sync =>
      obtain ⟨outcome, v, s₁, hsync, hholds, hinOrder, huploads⟩ := h.holds.sync hf h.size s
      rw [run_sync hsync] at hrun
      cases hrun
      exact ⟨huploads.map_ne_misuse, hholds, hinOrder, h.room⟩

theorem HasRoom.performAll (hf : backend.Follows view (Bucket.environment fails))
    {orders : List Order} (h : w.HasRoom key bytes)
    (hlegal : Order.Along Order.IsLegal orders bytes)
    (hroom : Order.Along Order.Fits orders bytes)
    (hrun : (Order.performAll orders w).run backend s = (some (outcomes, w'), s')) :
    (∀ outcome ∈ outcomes, ∀ misuse, outcome ≠ .error (.misuse misuse)) ∧
      w'.HasRoom key (Order.afterAll orders bytes) := by
  induction orders generalizing w bytes s outcomes with
  | nil =>
      cases hrun
      exact ⟨fun outcome hmem => absurd hmem List.not_mem_nil, h⟩
  | cons order rest ih =>
      obtain ⟨outcome, w₁, s₁, others, rfl, hfirst, hothers⟩ := Order.of_run_cons hrun
      obtain ⟨hserved, hholds⟩ := h.perform hf hlegal.1 hroom.1 hfirst
      obtain ⟨hall, hend⟩ := ih hholds hlegal.2 hroom.2 hothers
      exact ⟨List.forall_mem_cons.2 ⟨hserved, hall⟩, hend⟩

end Runs

end BucketTree.Writer
