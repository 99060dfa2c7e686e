import Ummanu.Vitality.ChildCeiling
import Ummanu.Vitality.Refusals
import Ummanu.Vitality.BatchOrder
import Ummanu.Vitality.Outlook
import Ummanu.Vitality.Restart
import Ummanu.Vitality.ChildCursor
import Ummanu.Release.Landing
import Ummanu.Release.Adoption
import Ummanu.Release.Checks
import Ummanu.E2e.AfterMergeLaw
import Ummanu.Usage.AttributionLaw
import Ummanu.Ledger.Mutation
import Ummanu.Ledger.CommandHistory
import Ummanu.Continuation.HistoryLaw
import Ummanu.Budget.CapRaiseLaw
import Ummanu.Sprint.CreateRace
import Ummanu.Sprint.Reservation
import Ummanu.Task.CreateLaw
import Ummanu.Po.SprintSessionLaw
import Ummanu.Dispatch.ClaimLaw
import Ummanu.Canon.UndoLaw
import Ummanu.Head.Framing
import Ummanu.Head.Progress
import Ummanu.Secrets.Envelope
import Ummanu.Secrets.Redact
import Ummanu.Gate.Publication
import Ummanu.Gate.Reruns
