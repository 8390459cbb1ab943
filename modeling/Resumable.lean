import Resumable.Document.Reading
import Resumable.Proofs.SuperUses
import Resumable.Proofs.Captured
import Resumable.Proofs.Arena
import Resumable.Proofs.Settling
import Resumable.Proofs.ModuleExports
import Resumable.Proofs.Contents
import Resumable.Proofs.HookIdentity
import Resumable.Proofs.Isomorphism
import Resumable.Proofs.Dependencies
import Resumable.Proofs.Caching
import Resumable.Proofs.Positions
import Resumable.Proofs.LoaderNames
import Resumable.Proofs.BoundNames
import Resumable.Proofs.FreshNames
import Resumable.Proofs.References
import Resumable.Proofs.Transport
import Resumable.Proofs.Mixing
