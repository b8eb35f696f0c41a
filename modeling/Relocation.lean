import Relocation.CommandLine.LogFormat
import Relocation.Main
import Relocation.Manifest.Encode
import Relocation.Proofs.Check.Bookkeeping
import Relocation.Proofs.Check.Markup
import Relocation.Proofs.Check.Merging
import Relocation.Proofs.Check.SelfContained
import Relocation.Proofs.Check.WholeFile
import Relocation.Proofs.Check.Wording
import Relocation.Proofs.Manifest.Addressing
import Relocation.Proofs.Manifest.Faults
import Relocation.Proofs.Manifest.Gaps
import Relocation.Proofs.Manifest.Rendering
import Relocation.Proofs.Manifest.RoundTrip
import Relocation.Proofs.Modules.InternalMembers
import Relocation.Proofs.Modules.OutOfReach
import Relocation.Proofs.Modules.Sources
import Relocation.Proofs.Names.Clashes
import Relocation.Proofs.Names.Equivalence
import Relocation.Proofs.Project.Cutoff
import Relocation.Proofs.Project.Indexes
import Relocation.Proofs.Project.Subclasses
import Relocation.Proofs.Sealed.Destination
import Relocation.Proofs.Sealed.Order
import Relocation.Proofs.Sealed.Passes
import Relocation.Proofs.Sealed.Relaxed
import Relocation.Proofs.Types.Identity
import Relocation.Proofs.Visibility.Inward
import Relocation.Proofs.Visibility.ProtectedUsages
import Relocation.Proofs.Visibility.PublicTarget
