import Permits.Main
import Permits.Proofs.Command.Build
import Permits.Proofs.Command.Check
import Permits.Proofs.Command.StatementTable
import Permits.Proofs.Command.Validate
import Permits.Proofs.Config.Lenient
import Permits.Proofs.Config.Pruning
import Permits.Proofs.Config.Settling
import Permits.Proofs.Config.Strict
import Permits.Proofs.Config.UnknownKeys
import Permits.Proofs.Decision.Candidates
import Permits.Proofs.Decision.Explanation
import Permits.Proofs.Decision.Foreign
import Permits.Proofs.Decision.Influence
import Permits.Proofs.Decision.Inheritance
import Permits.Proofs.Decision.Normalization
import Permits.Proofs.Decision.OpenSegments
import Permits.Proofs.Decision.Rearrangement
import Permits.Proofs.Decision.Relevance
import Permits.Proofs.Statement.Pattern
import Permits.Proofs.Statement.Spelling
import Permits.Proofs.Tree.Interruption
import Permits.Proofs.Tree.Records
import Permits.Proofs.Tree.Skeleton
