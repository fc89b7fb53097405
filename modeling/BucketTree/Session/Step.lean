import BucketTree.Session.AnyArgument
import BucketTree.Store.Interference

/-!
# Steps of a session

A session works on the parts of one store: the store itself, the tree over a bucket and its parts,
streams, and a mount. The types here are the steps, their replies, and their troubles. Numbers and
paths are values of any type. Writers, readers and listings stay open between steps under names
chosen by the caller.
-/

set_option autoImplicit false

namespace BucketTree

/-- A step on the store itself. -/
inductive StoreStep where
  | keys
  | requestCount
  | request (q : Request)
  | close
  | hook (rule : Rule)
  | unhook

/-- A step on the tree. -/
inductive TreeStep where
  | isFile (path : Value)
  | isDirectory (path : Value)
  | pathExists (path : Value)
  | owner
  | group
  | mode
  | setOwner
  | setMode (mode : Value)
  | status (path : Value)
  | list (path : Value) (isRecursive : Bool) (cancel : Option Token)
  | delete (path : Value) (isRecursive : Bool) (cancel : Option Token)
  | rename (source destination : Value) (cancel : Option Token) (overwrite : Bool)
  | mkdirs (path : Value) (createParents : Bool)
  | write (path : Value) (data : Bytes) (createParents : Bool)
  | read (path offset size : Value)
  | create (name : String) (path : Value) (createParents : Bool)
  | openForWrite (name : String) (path : Value) (data : Bytes)
  | openForRead (name : String) (path offset : Value)
  | listing (name : String) (path : Value) (isRecursive : Bool) (cancel : Option Token)
  | storeName
  | close
  /-- Uses the tree in a scope, which closes it. -/
  | scope

/-- A step on a directory key or on the status of a key. -/
inductive DirectoryStep where
  | isMarker (key : Value)
  | marker (key : Value)
  | withoutSuffix (key : Value)
  | createMarker (key : Value)
  | directoryExists (key : Value)
  | markerStatus (key : Value)
  | hasChildren (key : Value) (cancel : Option Token)
  | status (key : Key)

/-- A step of moving objects by their keys. -/
inductive MoveStep where
  | copy (source destination : Key)
  | deleteSource (source : Key)
  | file (source destination : Key)
  | directory (source destination : Key) (cancel : Option Token)

/-- A step on an open listing. -/
inductive ListingStep where
  | make (under : Option String) (isRecursive : Bool) (pageSize : Value) (cancel : Option Token)
  | next
  | all
  | keys
  | describe

/-- A step on an open writer. -/
inductive WriterStep where
  | make (key : Key) (data : Bytes) (maxSize : Int)
  | write (data : Bytes)
  | writeAt (data : Bytes) (offset : Value)
  | readAt (offset size : Value)
  | truncate (size : Value)
  | size
  | tell
  | sync
  | abort
  | close
  | describe
  | scope (items : List Bytes) (fault : Option Fault)
  | drop

/-- A step on an open reader. -/
inductive ReaderStep where
  | make (key : Key) (offset : Value) (stream : Stream)
  | read (size : Value)
  | readLine (size : Value)
  | tell
  | close
  | describe

/-- A step on cancellation tokens. -/
inductive CancelStep where
  | cancel (token : Token)
  | isCancelled (token : Token)
  | check (token : Option Token) (context : Value)

/-- A step on the mount. -/
inductive MountStep where
  | attributes (path handle : Value)
  | readDirectory (path : Value)
  | makeDirectory (path mode : Value)
  | removeDirectory (path : Value)
  | unlink (path : Value)
  | rename (source destination : Value)
  | create (path mode : Value)
  | openFile (path flags : Value)
  | read (path size offset handle : Value)
  | write (data : Bytes) (offset handle : Value)
  | truncate (path length handle : Value)
  | flush
  | sync (handle : Value)
  | release (handle : Value)
  | changeMode (mode : Value)
  | changeOwner
  | volume
  | destroy
  | handles

/-- A step of a session. -/
inductive Step where
  /-- A step on the store, in the bucket of the session or in another one. -/
  | store (bucket : Option String) (step : StoreStep)
  | tree (step : TreeStep)
  | directory (step : DirectoryStep)
  | move (step : MoveStep)
  | listing (name : String) (step : ListingStep)
  | writer (name : String) (step : WriterStep)
  | reader (name : String) (step : ReaderStep)
  | cancel (step : CancelStep)
  | mount (step : MountStep)

/-- The reply to a step. -/
inductive Reply where
  | nothing
  | flag (b : Bool)
  | number (n : Int)
  /-- A number of any type. -/
  | value (v : Value)
  | text (s : String)
  | content (data : Bytes)
  | names (names : List String)
  | requestCount (count : RequestCount)
  | metadata (metadata : Option Metadata)
  | page (page : Option Page)
  | objectStatus (status : Option ObjectStatus)
  | fileStatus (status : FileStatus)
  | entries (entries : List DirectoryEntry)
  | moved (result : Moved)
  | chunk (chunk : Chunk)
  /-- Chunks, and the fault that ended them. -/
  | chunks (chunks : List Chunk) (fault : Option Fault)
  /-- Keys, and the fault that ended them. -/
  | keys (keys : List Key) (fault : Option Fault)
  | listing (listing : Listing)
  | writer (writer : Writer)
  | reader (reader : Reader)
  | attributes (attributes : Attributes)
  | volume (status : VolumeStatus)
  | handles (handles : List (Int × Key × Nat))

/-- The ways in which a step fails. -/
inductive Trouble where
  | fault (fault : Fault)
  | errno (e : Errno)
  /-- Nothing is open under the name. -/
  | noHandle (name : String)
  /-- The listing is finished. -/
  | finished
  /-- A walk did not end. -/
  | endless

end BucketTree
