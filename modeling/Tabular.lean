import Tabular.Main
import Tabular.Files.Store
import Tabular.Proofs.Naming
import Tabular.Proofs.Soundness
import Tabular.Proofs.Outcomes
import Tabular.Proofs.Statements
import Tabular.Proofs.Accounting
import Tabular.Proofs.References
import Tabular.Proofs.Lexing
import Tabular.Proofs.Templates
import Tabular.Proofs.Injection
import Tabular.Proofs.Sessions
import Tabular.Proofs.Places
import Tabular.Proofs.Handles
import Tabular.Proofs.CatalogNames
import Tabular.Proofs.Definitions
import Tabular.Proofs.Remaking
import Tabular.Proofs.Population
import Tabular.Proofs.Materialisation
import Tabular.Proofs.Reports
import Tabular.Proofs.Agreement
import Tabular.Proofs.Collisions
import Tabular.Proofs.Continuity
import Tabular.Proofs.Structure
import Tabular.Proofs.Idempotence
import Tabular.Proofs.Calls
import Tabular.Proofs.Cascade
import Tabular.Proofs.Projection
import Tabular.Proofs.ServerRuns
import Tabular.Proofs.Batches
import Tabular.Proofs.Switching
import Tabular.Proofs.Recovery
import Tabular.Proofs.SchemaDocuments
import Tabular.Proofs.ServerNames
import Tabular.Proofs.Crowds
import Tabular.Proofs.BareNames
import Tabular.Proofs.Requests
import Tabular.Proofs.Acceptance
import Tabular.Proofs.Replacement
import Tabular.Proofs.Orphans
import Tabular.Proofs.Omissions
import Tabular.Proofs.Warnings
import Tabular.Proofs.Nullability
import Tabular.Proofs.TypeReferences
import Tabular.Proofs.Nesting
import Tabular.Proofs.Derivations
import Tabular.Proofs.Verdicts
import Tabular.Proofs.Confinement
import Tabular.Proofs.Lengths
import Tabular.Proofs.StoredValues
