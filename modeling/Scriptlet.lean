import Scriptlet.Proofs.Acceptance
import Scriptlet.Proofs.AcceptedObjects
import Scriptlet.Proofs.CallEffects
import Scriptlet.Proofs.Collection
import Scriptlet.Proofs.ConsistentOrder
import Scriptlet.Proofs.ContentEquality
import Scriptlet.Proofs.ControlFlow
import Scriptlet.Proofs.ExactArithmetic
import Scriptlet.Proofs.FrameRelease
import Scriptlet.Proofs.FrozenHistory
import Scriptlet.Proofs.HostCalls
import Scriptlet.Proofs.HostCopies
import Scriptlet.Proofs.KeyText
import Scriptlet.Proofs.LexicalAddressing
import Scriptlet.Proofs.Loosening
import Scriptlet.Proofs.LosslessResolution
import Scriptlet.Proofs.MemoryAccounts
import Scriptlet.Proofs.PathUnfolding
import Scriptlet.Proofs.Profiles
import Scriptlet.Proofs.RefusedPrograms
import Scriptlet.Proofs.RoundTrip
import Scriptlet.Proofs.Safety
import Scriptlet.Proofs.SharedDefaults
import Scriptlet.Proofs.SlotReuse
import Scriptlet.Proofs.StringStorage
import Scriptlet.Proofs.TaggedForm
import Scriptlet.Proofs.Termination
import Scriptlet.Proofs.TraceBrackets
import Scriptlet.Proofs.TraceLimits
import Scriptlet.Proofs.Tracebacks
import Scriptlet.Proofs.UniqueReading
