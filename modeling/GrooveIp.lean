import GrooveIp.Auth.Runs
import GrooveIp.Belr.Invisible
import GrooveIp.Belr.Termination
import GrooveIp.Chat.ConferenceNotify
import GrooveIp.Chat.IsComposing
import GrooveIp.Chat.ReceiptOrder
import GrooveIp.Config.Commit
import GrooveIp.Config.RoundTrip
import GrooveIp.Containers.LruCache
import GrooveIp.Cpim.DateTimeChecks
import GrooveIp.DialPlan.Lookup
import GrooveIp.Friends.Agreement
import GrooveIp.H264.Hostile
import GrooveIp.H264.Loss
import GrooveIp.Ice.Authentication
import GrooveIp.Ice.CandidateLists
import GrooveIp.Ice.Completion
import GrooveIp.Ice.ConcludedPairs
import GrooveIp.Ice.InitialStates
import GrooveIp.Ice.Ordering
import GrooveIp.Ice.Pruning
import GrooveIp.Ice.Roles
import GrooveIp.Ice.Transactions
import GrooveIp.Lime.Ratchet
import GrooveIp.Media.AudioMixerBypass
import GrooveIp.Media.EventQueueFifo
import GrooveIp.Media.FlowControl
import GrooveIp.Media.TickerOrder
import GrooveIp.Ortp.Delivery
import GrooveIp.Ortp.DtmfDelivery
import GrooveIp.Ortp.ExtendedSequence
import GrooveIp.Ortp.RtcpReceive
import GrooveIp.Ortp.RtcpValues
import GrooveIp.Ortp.RtpQueueRuns
import GrooveIp.Resolver.Delivery
import GrooveIp.Rtt.Loss
import GrooveIp.Sal.AnswerNumbers
import GrooveIp.Sal.DtlsRole
import GrooveIp.Sal.SdpRoundTrip
import GrooveIp.Sal.SdpSafety
import GrooveIp.Search.Incremental
import GrooveIp.Session.Restoring
import GrooveIp.Sip.Backslashes
import GrooveIp.Sip.ClientOutcome
import GrooveIp.Sip.EscapeRoundTrip
import GrooveIp.Sip.MainLoopRuns
import GrooveIp.Sip.MultipartRoundTrip
import GrooveIp.Sip.Reassembly
import GrooveIp.Sip.RefresherRuns
import GrooveIp.Sip.Sending
import GrooveIp.Sip.ServerAnswers
import GrooveIp.Sip.UriEquals
import GrooveIp.Srtp.Mandatory
import GrooveIp.Stun.AttributeOffsets
import GrooveIp.Vp8.HeaderBounds
import GrooveIp.Vp8.LossRuns
import GrooveIp.Zrtp.CommitAcceptance
import GrooveIp.Zrtp.Continuity
import GrooveIp.Zrtp.TypeLists
