import Dataflow.Main
import Dataflow.Session.Run
import Dataflow.Proofs.Transform.Building
import Dataflow.Proofs.Graph.Lookup
import Dataflow.Proofs.Graph.Joining
import Dataflow.Proofs.Graph.Validation
import Dataflow.Proofs.Graph.Registration
import Dataflow.Proofs.Graph.Construction
import Dataflow.Proofs.Session.Move
import Dataflow.Proofs.Session.Objects
import Dataflow.Proofs.Session.Ownership
import Dataflow.Proofs.Session.Ordinary
import Dataflow.Proofs.Session.Graphs
import Dataflow.Proofs.Session.Scripts
import Dataflow.Proofs.Session.SingleOwner
import Dataflow.Proofs.Graph.Growth
import Dataflow.Proofs.Session.History
import Dataflow.Proofs.Session.Refusal
import Dataflow.Proofs.Store.Changes
import Dataflow.Proofs.Session.Cells
import Dataflow.Proofs.Session.Constants
import Dataflow.Proofs.Session.Offers
import Dataflow.Proofs.Session.RegistrationOrder
import Dataflow.Proofs.Graph.Connecting
import Dataflow.Proofs.Graph.Skeleton
import Dataflow.Proofs.Session.Skeleton
import Dataflow.Proofs.Json.Numerals
import Dataflow.Proofs.Json.Values
import Dataflow.Proofs.Json.Parts
import Dataflow.Proofs.Profile.Format
import Dataflow.Proofs.Store.Frame
import Dataflow.Proofs.Graph.Violations
import Dataflow.Proofs.Graph.Description
import Dataflow.Proofs.Graph.Calls
import Dataflow.Proofs.Session.Log
import Dataflow.Proofs.Profile.Verdicts
import Dataflow.Proofs.Json.Cuts
import Dataflow.Proofs.Json.Documents
import Dataflow.Proofs.Profile.Truncation
import Dataflow.Proofs.CommandLine.Resolving
import Dataflow.Proofs.CommandLine.Spellings
import Dataflow.Proofs.Design.BufferDepth
import Dataflow.Proofs.Transform.Traits
import Dataflow.Proofs.Transform.Lookups
import Dataflow.Proofs.Session.Traits
import Dataflow.Proofs.Session.Everywhere
import Dataflow.Proofs.Session.Identities
import Dataflow.Proofs.Session.Names
import Dataflow.Proofs.Session.IdentityLimit
import Dataflow.Proofs.Text.Reading
import Dataflow.Proofs.Store.Inspection
