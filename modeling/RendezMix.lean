import RendezMix.Guarantees.AddressOrder
import RendezMix.Guarantees.BandwidthSymmetry
import RendezMix.Guarantees.BandwidthTotals
import RendezMix.Guarantees.BinaryText
import RendezMix.Guarantees.BufferSearches
import RendezMix.Guarantees.ByteQueues
import RendezMix.Guarantees.CalendarTimes
import RendezMix.Guarantees.CommitReveal
import RendezMix.Guarantees.ComputeSrv
import RendezMix.Guarantees.ConnectionRuns
import RendezMix.Guarantees.ConsensusMajority
import RendezMix.Guarantees.DelayAgreement
import RendezMix.Guarantees.DelayDraws
import RendezMix.Guarantees.DiffMinimality
import RendezMix.Guarantees.EdScripts
import RendezMix.Guarantees.ExtendReads
import RendezMix.Guarantees.FlushSteps
import RendezMix.Guarantees.HalfFlight
import RendezMix.Guarantees.HsCacheRuns
import RendezMix.Guarantees.KeyValueLines
import RendezMix.Guarantees.LinkFrames
import RendezMix.Guarantees.MajoritySrv
import RendezMix.Guarantees.OnionQueueTurns
import RendezMix.Guarantees.OomRecovery
import RendezMix.Guarantees.OrderPreserving
import RendezMix.Guarantees.ParamMedians
import RendezMix.Guarantees.PartialKnowledge
import RendezMix.Guarantees.PqueueIntegrity
import RendezMix.Guarantees.ProtocolQueries
import RendezMix.Guarantees.ReadyRelease
import RendezMix.Guarantees.ResolvedAnswers
import RendezMix.Guarantees.ResponsibleHsdirs
import RendezMix.Guarantees.ReverseMapRuns
import RendezMix.Guarantees.RouterEntries
import RendezMix.Guarantees.SchedulerRuns
import RendezMix.Guarantees.SendmeDigests
import RendezMix.Guarantees.SendmeRandomness
import RendezMix.Guarantees.StreamBlocking
import RendezMix.Guarantees.TimerFiring
import RendezMix.Guarantees.TimerRelease
import RendezMix.Guarantees.TokenLevels
import RendezMix.Guarantees.TokenRemoval
import RendezMix.Guarantees.UniformDelays
import RendezMix.Guarantees.VegasArithmetic
import RendezMix.Guarantees.WeightBalance
import RendezMix.Guarantees.WindowCredit
import RendezMix.Guarantees.XoffRespected
import RendezMix.Guarantees.AddressRewriting
import RendezMix.Guarantees.VoteTallies
import RendezMix.Guarantees.ReplayMemory
import RendezMix.Guarantees.PeriodBoundaries
import RendezMix.Guarantees.PaddingTimeouts
import RendezMix.Guarantees.CellLayers
