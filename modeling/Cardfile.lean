import Cardfile.Main
import Cardfile.Proofs.Admission
import Cardfile.Proofs.Agreement
import Cardfile.Proofs.BatchUpdate
import Cardfile.Proofs.Conversion
import Cardfile.Proofs.FreshIds
import Cardfile.Proofs.LockStep
import Cardfile.Proofs.Memo
import Cardfile.Proofs.Outcomes
import Cardfile.Proofs.Pairs
import Cardfile.Proofs.Recency
import Cardfile.Proofs.Reload
import Cardfile.Proofs.RepeatedUpdates
import Cardfile.Proofs.Requests
import Cardfile.Proofs.Restoring
import Cardfile.Proofs.Resurrection
import Cardfile.Proofs.Retention
import Cardfile.Proofs.SlotOrder
import Cardfile.Proofs.Statements
import Cardfile.Proofs.Storage.Boundaries
import Cardfile.Proofs.Storage.DecimalCode
import Cardfile.Proofs.Storage.Rewriting
import Cardfile.Proofs.Validity
import Cardfile.Proofs.Verification
import Cardfile.Proofs.Written
import Cardfile.Service.Basic
