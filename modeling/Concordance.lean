import Concordance.Main
import Concordance.Proofs.Findings
import Concordance.Proofs.OrderIndependence
import Concordance.Proofs.Fingerprint
import Concordance.Proofs.References
import Concordance.Proofs.Sorting
import Concordance.Proofs.Step
import Concordance.Proofs.Publication
import Concordance.Proofs.Interleaving
import Concordance.Proofs.Workers
import Concordance.Proofs.Leftovers
import Concordance.Proofs.Lifecycle
import Concordance.Proofs.Immutability
import Concordance.Proofs.Rebuild
import Concordance.Proofs.Documents
import Concordance.Proofs.History
import Concordance.Proofs.Demands
import Concordance.Proofs.Layering
import Concordance.Proofs.Loading
import Concordance.Proofs.Recording
import Concordance.Proofs.Saving
import Concordance.Proofs.Ownership
import Concordance.Proofs.Stability
import Concordance.Proofs.Changing
import Concordance.Proofs.Spillover
import Concordance.Proofs.Freezing
import Concordance.Proofs.Impact
import Concordance.Proofs.Absence
import Concordance.Proofs.Robustness
import Concordance.Proofs.Promotion
import Concordance.Proofs.Tables
import Concordance.Proofs.Rounding
import Concordance.Proofs.Fitting
import Concordance.Proofs.Wording
import Concordance.Proofs.Normalizing
