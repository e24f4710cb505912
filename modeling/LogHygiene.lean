import LogHygiene.Main
import LogHygiene.Proofs.Fix.Outcome
import LogHygiene.Proofs.Fix.Rewriting
import LogHygiene.Proofs.Fix.Again
import LogHygiene.Proofs.Facts.Loggers
import LogHygiene.Proofs.Fix.Founded
import LogHygiene.Proofs.Cache.Confining
import LogHygiene.Proofs.Cache.Ledger
import LogHygiene.Proofs.Cache.Sharing
import LogHygiene.Proofs.Config.Fingerprint
import LogHygiene.Proofs.Enforcement.Abreast
import LogHygiene.Proofs.Enforcement.Coherence
import LogHygiene.Proofs.Enforcement.Scheduling
import LogHygiene.Proofs.Cache.Keeping
import LogHygiene.Proofs.Cache.Mooring
import LogHygiene.Proofs.Cache.Dropping
import LogHygiene.Proofs.Enforcement.Accounting
import LogHygiene.Proofs.Enforcement.Frame
import LogHygiene.Proofs.Enforcement.History
import LogHygiene.Proofs.Fix.Insertion
import LogHygiene.Proofs.Fix.Ordering
import LogHygiene.Proofs.Fix.Standing
import LogHygiene.Proofs.Fix.Accord
import LogHygiene.Proofs.Fix.ImportStyle
import LogHygiene.Proofs.Selection.Collecting
import LogHygiene.Proofs.Selection.Shown
import LogHygiene.Proofs.Selection.Sorting
import LogHygiene.Proofs.Suppression
import LogHygiene.Proofs.Edits.Acceptance
import LogHygiene.Proofs.Facts.Comments
import LogHygiene.Proofs.Facts.Completeness
import LogHygiene.Proofs.Facts.Grounding
import LogHygiene.Proofs.Logger.Establishing
