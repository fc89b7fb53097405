import BucketTree.Key.AnyKey
import BucketTree.Proofs.Content.Life
import BucketTree.Proofs.Filing.Session
import BucketTree.Proofs.Key.Hierarchy
import BucketTree.Proofs.Marker.Session
import BucketTree.Proofs.Mount.Editing
import BucketTree.Proofs.Mount.Entries
import BucketTree.Proofs.Mount.Lookup
import BucketTree.Proofs.Mount.Outcomes
import BucketTree.Proofs.Mount.Runs
import BucketTree.Proofs.Mount.Shadowing
import BucketTree.Proofs.Mount.Shutdown
import BucketTree.Proofs.Move.Fallback
import BucketTree.Proofs.Store.ListingSession
import BucketTree.Proofs.Time.Epoch
import BucketTree.Proofs.Tree.Agreement
import BucketTree.Proofs.Tree.Cancellation
import BucketTree.Proofs.Tree.Candor
import BucketTree.Proofs.Tree.Grammar
import BucketTree.Proofs.Tree.Making
import BucketTree.Proofs.Tree.Names
import BucketTree.Proofs.Tree.Order
import BucketTree.Proofs.Tree.Reading
import BucketTree.Proofs.Tree.Turns
import BucketTree.Proofs.Tree.Validation
import BucketTree.Session.Run
