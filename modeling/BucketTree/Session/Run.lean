import BucketTree.Session.Step

/-!
# Sessions

A session runs steps one after another on a store in memory with rules of interference. The answer
to a step consists of its reply or its trouble, the requests that reached the store, and the changes
to the bucket of the session.
-/

set_option autoImplicit false

namespace BucketTree

/-- An open item: a writer, a reader or a listing. -/
inductive OpenItem where
  | writer (w : Writer)
  | reader (r : Reader)
  | listing (l : Listing)

/-- The state of a session. -/
structure Session where
  tree : Tree
  /-- The name that the store goes by. -/
  storeName : String
  mount : Mount
  world : World
  /-- The open items by name. -/
  items : List (String × OpenItem)

namespace OpenItem

/-- Tells whether the item holds a block of memory, that of a buffer not counted. -/
def holds (block : BlockNumber) : OpenItem → Bool
  | .reader r => r.holds block
  | _ => false

/-- The item after the holders of blocks of memory changed. -/
def reclaim (isHeld : BlockNumber → Bool) : OpenItem → OpenItem
  | .writer w => .writer (w.reclaim isHeld)
  | other => other

end OpenItem

/-- The setup of a session. -/
structure SessionSetup where
  bucket : String
  settings : GivenSettings
  storeName : String
  clock : Clock
  /-- Objects that are in the bucket at the start. -/
  seed : List (Key × Bytes)
  /-- The limit on nested calls. The interpreter allows a thousand frames, and the callers and the
  request of the innermost call take some of them. -/
  nestingLimit : Nat := 980

/-- The answer to a step. -/
structure StepAnswer where
  outcome : Except Trouble Reply
  /-- The requests that reached the store, in order. -/
  requests : List Request
  /-- The objects that are new or changed, in the order of their keys. -/
  changed : List (Key × StoredObject)
  /-- The keys that are gone, in order. -/
  removed : List Key

namespace Session

variable {α : Type}

/-- The outcome of a part of a step, and the session after it. -/
abbrev Part (α : Type) := Session → Except Trouble α × Session

/-- Stores the seed of a session. -/
def plant (bucket : String) : List (Key × Bytes) → Memory → Except Fault Memory
  | [], m => .ok m
  | (key, data) :: rest, m =>
      match m.put bucket key (.ofBytes data) with
      | (.ok _, m) => plant bucket rest m
      | (.error fault, _) => .error fault

/-- Starts a session: settings are checked first, then the bucket name, and the seed is stored
without a record. -/
def start (setup : SessionSetup) : Except Fault Session := do
  let settings ← setup.settings.toSettings.mapError .misuse
  let tree ← (Tree.make setup.bucket settings 0 setup.nestingLimit).mapError .misuse
  let memory ← plant setup.bucket setup.seed (.empty setup.clock)
  return ⟨tree, setup.storeName, .fresh, ⟨memory, [], [], []⟩, []⟩

/-- The item under a name. -/
def item? (s : Session) (name : String) : Option OpenItem :=
  (s.items.find? fun e => e.1 == name).map (·.2)

/-- The session without the item under a name. -/
def dropItem (name : String) (s : Session) : Session :=
  { s with items := s.items.filter fun e => e.1 != name }

/-- The session with an item under a name, instead of the one there. -/
def setItem (name : String) (item : OpenItem) (s : Session) : Session :=
  { s.dropItem name with items := (name, item) :: (s.dropItem name).items }

/-- A stored object or an open reader holds a block of memory. -/
def holds (block : BlockNumber) (s : Session) : Bool :=
  s.world.memory.holds block || s.items.any fun e => e.2.holds block

/-- The session with every buffer alone in its block of memory that nobody else holds. -/
def reclaim (s : Session) : Session :=
  { s with
    items := s.items.map fun e => (e.1, e.2.reclaim s.holds)
    mount := s.mount.mapWriters (Writer.reclaim s.holds) }

/-- Performs a program on a bucket of the store. -/
def perform (bucket : String) (p : Program α) : Part α := fun s =>
  match p.run (World.backend bucket) s.world with
  | (some result, world) => (.ok result, { s with world := world })
  | (none, world) => (.error .endless, { s with world := world })

/-- Performs an action on the session's bucket. -/
def act (a : Action α) : Part α := fun s =>
  match perform s.tree.bucket a.run s with
  | (.ok (.ok result), s) => (.ok result, s)
  | (.ok (.error fault), s) => (.error (.fault fault), s)
  | (.error trouble, s) => (.error trouble, s)

/-- Performs an action and makes its result the reply. -/
def reply (a : Action α) (f : α → Reply) : Part Reply := fun s =>
  let (outcome, s) := act a s
  (outcome.map f, s)

/-- Performs an action and keeps its result open under a name. -/
def openAs (name : String) (a : Action α) (f : α → OpenItem) : Part Reply := fun s =>
  match act a s with
  | (.ok result, s) => (.ok .nothing, s.setItem name (f result))
  | (.error trouble, s) => (.error trouble, s)

/-! ## Steps -/

/-- The reply to an answer of the store; a stream is read once, without a limit. -/
def answerReply : (q : Request) → q.Answer → Except Fault Reply
  | .head _, metadata => .ok (.metadata metadata)
  | .get _, body => .ok (.content body.bytes)
  | .put _ _, _ => .ok .nothing
  | .delete _, _ => .ok .nothing
  | .copy _ _, _ => .ok .nothing
  | .list _, page => .ok (.page page)
  | .openRange _ _, stream => (stream.read stream.weight).1.map .content

/-- A step on the bucket of a name. -/
def storeStep (bucket : String) : StoreStep → Part Reply
  | .keys, s => (.ok (.names (s.world.memory.bucket bucket).keys), s)
  | .requestCount, s => (.ok (.requestCount s.world.memory.count), s)
  | .request q, s =>
      match perform bucket (Program.request q) s with
      | (.ok (.ok answer), s) => ((answerReply q answer).mapError .fault, s)
      | (.ok (.error fault), s) => (.error (.fault fault), s)
      | (.error trouble, s) => (.error trouble, s)
  | .close, s => (.ok .nothing, s)
  | .hook rule, s =>
      (.ok .nothing, { s with world := { s.world with rules := s.world.rules ++ [rule] } })
  | .unhook, s => (.ok .nothing, { s with world := { s.world with rules := [] } })

/-- A step on the tree. -/
def treeStep (t : Tree) : TreeStep → Part Reply
  | .isFile path => reply (t.isFile path) .flag
  | .isDirectory path => reply (t.isDirectory path) .flag
  | .pathExists path => reply (t.exists? path) .flag
  | .owner => fun s => (.ok (.text Tree.owner), s)
  | .group => fun s => (.ok (.text Tree.group), s)
  | .mode => fun s => (.ok (.number Tree.mode), s)
  | .setOwner => fun s => (.ok .nothing, s)
  | .setMode mode => reply (Action.ofMisuse (Tree.setMode mode)) fun _ => .nothing
  | .status path => reply (t.status path) .fileStatus
  | .list path isRecursive cancel => reply (t.list path isRecursive cancel) .entries
  | .delete path isRecursive cancel =>
      reply (t.delete path isRecursive cancel) fun _ => .nothing
  | .rename source destination cancel overwrite =>
      reply (t.rename source destination cancel overwrite) .moved
  | .mkdirs path createParents => reply (t.mkdirs path createParents) .flag
  | .write path data createParents =>
      reply (t.writeFile path data createParents) fun n => .number n
  | .read path offset size => reply (t.readOnceAny path offset size) .content
  | .create name path createParents => openAs name (t.create path createParents) .writer
  | .openForWrite name path data => openAs name (t.openForWrite path data) .writer
  | .openForRead name path offset => openAs name (t.openForRead path offset) .reader
  | .listing name path isRecursive cancel =>
      openAs name (t.listing path isRecursive cancel) .listing
  | .storeName => fun s => (.ok (.text s.storeName), s)
  | .close => fun s => (.ok .nothing, { s with tree := s.tree.close })
  | .scope => fun s => (.ok (.flag true), { s with tree := s.tree.close })

/-- The key of a directory, to which the marker suffix can be joined. -/
def joinable (key : Value) : Action Key := Action.ofMisuse (AnyKey.joinable key)

/-- A step on a directory key or on the status of a key. -/
def directoryStep (t : Tree) : DirectoryStep → Part Reply
  | .isMarker key => reply (Action.ofMisuse (AnyKey.isMarker t.suffix key)) .flag
  | .marker key =>
      reply (joinable key >>= fun key => Action.ofPath (Key.marker t.suffix key)) .text
  | .withoutSuffix key => reply (Action.ofMisuse (AnyKey.withoutSuffix t.suffix key)) .text
  | .createMarker key => reply (joinable key >>= Directory.createMarker t.suffix) fun _ => .nothing
  | .directoryExists key => reply (joinable key >>= Directory.exists? t.suffix) .flag
  | .markerStatus key => reply (joinable key >>= Directory.markerStatus t.suffix) .objectStatus
  | .hasChildren key cancel => reply (Directory.hasChildrenAny key cancel) .flag
  | .status key => reply (statusOf key) .objectStatus

/-- A step of moving objects. -/
def moveStep (t : Tree) : MoveStep → Part Reply
  | .copy source destination => reply (Move.copyObject source destination) fun _ => .nothing
  | .deleteSource source => reply (Move.deleteSource source) fun _ => .nothing
  | .file source destination => reply (Move.file source destination) .moved
  | .directory source destination cancel =>
      reply (Move.directory t.settings t.pageLimit source destination cancel) .moved

/-- The chunks that are left of a listing and the fault that ended them, within a number of
pages, and the listing afterwards. -/
def remaining : Nat → Listing → Program ((List Chunk × Option Fault) × Listing)
  | 0, _ => .endless
  | pages + 1, l => do
      match ← l.next with
      | (.error fault, l) => return (([], some fault), l)
      | (.ok none, l) => return (([], none), l)
      | (.ok (some chunk), l) =>
          let ((chunks, fault), l) ← remaining pages l
          return ((chunk :: chunks, fault), l)

/-- A step on the listing under a name. -/
def listingStep (t : Tree) (name : String) : ListingStep → Part Reply
  | .make under isRecursive pageSize cancel, s =>
      match Listing.make under isRecursive pageSize cancel with
      | .ok l => (.ok .nothing, s.setItem name (.listing l))
      | .error misuse => (.error (.fault (.misuse misuse)), s)
  | step, s =>
      match s.item? name with
      | some (.listing l) =>
          let rest (f : List Chunk → Option Fault → Reply) :=
            match perform t.bucket (remaining t.pageLimit l) s with
            | (.ok ((chunks, fault), l), s) => (.ok (f chunks fault), s.setItem name (.listing l))
            | (.error trouble, s) => (.error trouble, s)
          match step with
          | .next =>
              match perform t.bucket l.next s with
              | (.ok (.ok (some chunk), l), s) => (.ok (.chunk chunk), s.setItem name (.listing l))
              | (.ok (.ok none, l), s) => (.error .finished, s.setItem name (.listing l))
              | (.ok (.error fault, l), s) => (.error (.fault fault), s.setItem name (.listing l))
              | (.error trouble, s) => (.error trouble, s)
          | .all => rest .chunks
          | .keys => rest fun chunks fault => .keys (chunks.flatMap (·.keys)) fault
          | _ => (.ok (.listing l), s)
      | _ => (.error (.noHandle name), s)

/-- The reply to an operation on a writer, which is kept under its name. -/
def kept (name : String) (result : Except Misuse α × Writer) (f : α → Reply) :
    Part Reply := fun s =>
  (match result.1 with
    | .ok a => .ok (f a)
    | .error misuse => .error (.fault (.misuse misuse)), s.setItem name (.writer result.2))

/-- Performs a program on a writer, which is kept under its name. -/
def performKept (bucket name : String) (p : Program (Except Fault Unit × Writer)) :
    Part Reply := fun s =>
  match perform bucket p s with
  | (.ok (.ok (), w), s) => (.ok .nothing, s.setItem name (.writer w))
  | (.ok (.error fault, w), s) => (.error (.fault fault), s.setItem name (.writer w))
  | (.error trouble, s) => (.error trouble, s)

/-- A step on the writer under a name. -/
def writerStep (t : Tree) (name : String) : WriterStep → Part Reply
  | .make key data maxSize, s => (.ok .nothing, s.setItem name (.writer (.start key data maxSize)))
  | .drop, s => (.ok .nothing, s.dropItem name)
  | step, s =>
      match s.item? name with
      | some (.writer w) =>
          match step with
          | .write data => kept name (w.write data) (fun n => .number n) s
          | .writeAt data offset => kept name (w.writeAtAny data offset) (fun n => .number n) s
          | .readAt offset size => kept name (w.readAtAny offset size) .content s
          | .truncate size => kept name (w.truncateAny size) .value s
          | .size => kept name (w.size, w) (fun n => .number n) s
          | .tell => kept name (w.tell, w) (fun n => .number n) s
          | .sync => performKept t.bucket name w.sync s
          | .abort => kept name w.abort (fun _ => .nothing) s
          | .close => performKept t.bucket name w.close s
          | .scope items fault => performKept t.bucket name (w.scope items fault) s
          | _ => (.ok (.writer w), s)
      | _ => (.error (.noHandle name), s)

/-- A step on the reader under a name. -/
def readerStep (name : String) : ReaderStep → Part Reply
  | .make key offset stream, s =>
      (.ok .nothing, s.setItem name (.reader (.start stream key offset)))
  | step, s =>
      match s.item? name with
      | some (.reader r) =>
          let keep (result : Piece × Reader) :=
            (match result.1 with
              | .ok data => Except.ok (Reply.content data)
              | .error fault => .error (Trouble.fault fault), s.setItem name (.reader result.2))
          match step with
          | .read size => keep (r.readAny size)
          | .readLine size => keep (r.readLineAny size)
          | .tell => ((r.tell.map .value).mapError fun misuse => .fault (.misuse misuse), s)
          | .close =>
              let (outcome, r) := r.close
              ((outcome.map fun _ => .nothing).mapError .fault, s.setItem name (.reader r))
          | _ => (.ok (.reader r), s)
      | _ => (.error (.noHandle name), s)

/-- A step on cancellation tokens. -/
def cancelStep : CancelStep → Part Reply
  | .cancel token => fun s => (.ok .nothing, { s with world := s.world.cancel (some token) })
  | .isCancelled token => fun s => (.ok (.flag (s.world.cancelled.contains token)), s)
  | .check token context => reply (Action.checkCancelledAny token context) fun _ => .nothing

/-- Performs an operation of the mount and makes its result the reply. -/
def mounted (a : MountAction α) (f : α → Reply) : Part Reply := fun s =>
  match perform s.tree.bucket (a.run.run s.mount) s with
  | (.ok (.ok result, mount), s) => (.ok (f result), { s with mount := mount })
  | (.ok (.error (.errno e), mount), s) => (.error (.errno e), { s with mount := mount })
  | (.ok (.error (.fault fault), mount), s) => (.error (.fault fault), { s with mount := mount })
  | (.error trouble, s) => (.error trouble, s)

/-- The reply to a call of the operating system that succeeded. -/
def success : Reply := .number 0

/-- A step on the mount. -/
def mountStep (t : Tree) : MountStep → Part Reply
  | .attributes path handle =>
      mounted (Mount.handleBesidePath handle >>= Mount.getAttributes t path) .attributes
  | .readDirectory path => mounted (Mount.readDirectory t path) .names
  | .makeDirectory path mode => mounted (Mount.makeDirectory t path mode) fun _ => success
  | .removeDirectory path => mounted (Mount.removeDirectory t path) fun _ => success
  | .unlink path => mounted (Mount.unlink t path) fun _ => success
  | .rename source destination => mounted (Mount.rename t source destination) fun _ => success
  | .create path mode => mounted (Mount.create t path mode) fun h => .number h
  | .openFile path flags => mounted (Mount.openFileAny t path flags) fun h => .number h
  | .read path size offset handle =>
      mounted (Mount.searchedHandle handle >>= Mount.readAny t path size offset) .content
  | .write data offset handle =>
      mounted (Mount.searchedHandle handle >>= Mount.writeAny data offset) fun n => .number n
  | .truncate path length handle =>
      mounted (Mount.handleBesidePath handle >>= Mount.truncateAny t path length) fun _ => success
  | .flush => fun s => (.ok success, s)
  | .sync handle => mounted (Mount.searchedHandle handle >>= Mount.sync) fun _ => success
  | .release handle => mounted (Mount.handleTakenOut handle >>= Mount.release) fun _ => success
  | .changeMode mode => mounted (Mount.passed (Tree.setMode mode)) fun _ => success
  | .changeOwner => fun s => (.ok success, s)
  | .volume => fun s => (.ok (.volume .unlimited), s)
  | .destroy => mounted Mount.destroy fun _ => .nothing
  | .handles => fun s =>
      ((s.mount.openHandles.map .handles).mapError fun misuse => .fault (.misuse misuse), s)

/-- A step; walks may take as many pages as the store can serve. -/
def dispatch (step : Step) : Part Reply := fun s =>
  let t := { s.tree with pageLimit := s.world.pageLimit s.tree.bucket }
  match step with
  | .store bucket step => storeStep (bucket.getD t.bucket) step s
  | .tree step => treeStep t step s
  | .directory step => directoryStep t step s
  | .move step => moveStep t step s
  | .listing name step => listingStep t name step s
  | .writer name step => writerStep t name step s
  | .reader name step => readerStep name step s
  | .cancel step => cancelStep step s
  | .mount step => mountStep t step s

/-- The entries of a bucket that are new or other than in an earlier one. -/
def changedEntries (before after : Bucket) : List (Key × StoredObject) :=
  after.entries.filter fun (key, object) => !(before.find? key).any object.looksLike

/-- The keys of a bucket that a later one lacks. -/
def removedKeys (before after : Bucket) : List Key :=
  before.keys.filter fun key => (after.find? key).isNone

/-- Runs one step. No step changes a buffer after it changed the store, so blocks of memory are
reclaimed between steps. -/
def runStep (step : Step) (s : Session) : StepAnswer × Session :=
  let before := s.world.memory.bucket s.tree.bucket
  let (outcome, s) := dispatch step s
  let after := s.world.memory.bucket s.tree.bucket
  (⟨outcome, s.world.requests.reverse, changedEntries before after, removedKeys before after⟩,
    { s.reclaim with world := { s.world with requests := [] } })

/-- Runs steps one after another, and gives the store as it is at the end. -/
def runSteps : List Step → Session → List StepAnswer × Memory
  | [], s => ([], s.world.memory)
  | step :: rest, s =>
      let (answer, s) := runStep step s
      let (answers, memory) := runSteps rest s
      (answer :: answers, memory)

/-- The answer with the request count of the finished session, if it shows one. -/
def settle (count : RequestCount) (answer : StepAnswer) : StepAnswer :=
  match answer.outcome with
  | .ok (.requestCount _) => { answer with outcome := .ok (.requestCount count) }
  | _ => answer

/-- Runs a whole session. The request count is one for the whole session: every reply that
shows it shows it as it stands at the end. -/
def run (setup : SessionSetup) (steps : List Step) : Except Fault (List StepAnswer) :=
  (start setup).map fun s =>
    let (answers, memory) := runSteps steps s
    answers.map (settle memory.count)

end Session

end BucketTree
