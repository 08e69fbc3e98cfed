import Relavium.Budget.AllowanceConservation
import Relavium.Budget.CommitmentDurability
import Relavium.Budget.MoneyRefusal
import Relavium.Expression.LiteralReadPositions
import Relavium.Interpolation.QuotedArguments
import Relavium.Llm.AttemptBudget
import Relavium.Llm.ReservationCover
import Relavium.Llm.ScrubSecrets
import Relavium.Llm.StreamGrammar
import Relavium.Llm.TokenIsolation
import Relavium.Plan.MergeBranches
import Relavium.Run.DispatchCap
import Relavium.Run.EventStream
import Relavium.Run.HostWorkLifetimes
import Relavium.Run.MediaJobCharges
import Relavium.Run.OutboxProtocol
import Relavium.Run.ResumeVerification
import Relavium.Run.SchedulerProgress
import Relavium.Run.TerminalNodes
import Relavium.Session.CompactionHistory
import Relavium.Session.History
import Relavium.Shared.MediaPublication
import Relavium.Store.BatchAdmission
import Relavium.Store.EffectScope
import Relavium.Store.InMemoryMediaStore
import Relavium.Store.MediaCollectionSafety
import Relavium.Store.MoneyOfRecord
import Relavium.Store.OutboxFileRuns
import Relavium.Store.SessionLedgerRun
import Relavium.Store.TurnKeyOrder
import Relavium.Tools.CommandGlob
import Relavium.Tools.EffectReplay
import Relavium.Tools.MediaRedactionGuarantee
import Relavium.Tools.PemBlocks
import Relavium.Tools.SplitSpans
import Relavium.Usage.CoverageAccounting
import Relavium.Verifier.VorbisLookup
import Relavium.Verifier.WebmGuarantee
