import ReviveNetwork.TransitionProofs
import ReviveNetwork.SpanProofs
import ReviveNetwork.QueueProofs
import ReviveNetwork.BufferProofs
import ReviveNetwork.ReadFdProofs
import ReviveNetwork.FootprintProofs
import ReviveNetwork.ChannelProofs
import ReviveNetwork.PollerProofs
import ReviveNetwork.PolledProofs
import ReviveNetwork.RemovedProofs
import ReviveNetwork.EventLoopProofs
import ReviveNetwork.RoundProofs
import ReviveNetwork.MailboxProofs
import ReviveNetwork.ConnectionProofs
import ReviveNetwork.StreamProofs
import ReviveNetwork.StateProofs
import ReviveNetwork.LineProofs
import ReviveNetwork.OutputProofs
import ReviveNetwork.HighWaterProofs
import ReviveNetwork.NestingProofs
import ReviveNetwork.FlushProofs
import ReviveNetwork.ServerProofs
import ReviveNetwork.PhaseProofs
import ReviveNetwork.LifeProofs
import ReviveNetwork.TableProofs
import ReviveNetwork.TeardownProofs
import ReviveNetwork.LateProofs
import ReviveNetwork.HostProofs
import ReviveNetwork.OptionalProofs
import ReviveNetwork.SortedProofs
import ReviveNetwork.TimerProofs
import ReviveNetwork.TimerQueueProofs
import ReviveNetwork.ExpiredProofs
import ReviveNetwork.TimerfdProofs
import ReviveNetwork.ClockProofs
import ReviveNetwork.DispatchProofs
import ReviveNetwork.ActiveProofs
import ReviveNetwork.AcceptorProofs
import ReviveNetwork.DescriptorProofs
import ReviveNetwork.LoopPoolProofs
import ReviveNetwork.LoopThreadProofs
import ReviveNetwork.LoggingProofs
import ReviveNetwork.LoggedProofs
import ReviveNetwork.CellsProofs
import ReviveNetwork.CalendarProofs
import ReviveNetwork.LogFileProofs
import ReviveNetwork.FileUtilProofs
import ReviveNetwork.NumeralProofs
import ReviveNetwork.LexicalProofs
import ReviveNetwork.StringPieceProofs
import ReviveNetwork.LogStreamProofs
import ReviveNetwork.FmtProofs
import ReviveNetwork.FormatProofs
import ReviveNetwork.RecordProofs
import ReviveNetwork.CondVarProofs
import ReviveNetwork.BlockingQueueProofs
import ReviveNetwork.BoundedQueueProofs
import ReviveNetwork.ThreadPoolProofs
import ReviveNetwork.MutexProofs
import ReviveNetwork.WakeupProofs
import ReviveNetwork.StrandedProofs
import ReviveNetwork.CompletionProofs
import ReviveNetwork.LatchProofs
import ReviveNetwork.ThreadProofs
import ReviveNetwork.PeerProofs
import ReviveNetwork.PipelineProofs
import ReviveNetwork.PaddedProofs
import ReviveNetwork.TimestampProofs
import ReviveNetwork.HeadingProofs
import ReviveNetwork.SectionsProofs
import ReviveNetwork.SpacingProofs
import ReviveNetwork.StopProofs
import ReviveNetwork.SupplyProofs
import ReviveNetwork.AnsweredProofs
import ReviveNetwork.AddressProofs
import ReviveNetwork.IdentityProofs
import ReviveNetwork.LocalProofs
import ReviveNetwork.SingletonProofs
