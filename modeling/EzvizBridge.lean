import EzvizBridge.Transport.VideoCipherModes
import EzvizBridge.Transport.CodecDetection
import EzvizBridge.Transport.RtpTsStreams
import EzvizBridge.Transport.VideoPipeline
import EzvizBridge.Hub.Succession
import EzvizBridge.Hub.FanOut
import EzvizBridge.Hub.Sessions
import EzvizBridge.Hub.Backoff
import EzvizBridge.Remux.Attendance
import EzvizBridge.Remux.LateJoiner
import EzvizBridge.Remux.WarmMeaning
import EzvizBridge.Recordings.Quota
import EzvizBridge.Recordings.Orphans
import EzvizBridge.Recordings.Custody
import EzvizBridge.SceneTrove.Completion
import EzvizBridge.SceneTrove.LedgerHistory
import EzvizBridge.SceneTrove.DayHandoff
import EzvizBridge.SceneTrove.Formats
import EzvizBridge.Alarms.Eviction
import EzvizBridge.Alarms.Browsing
import EzvizBridge.Alarms.Delivery
import EzvizBridge.Alarms.Retry
import EzvizBridge.Alarms.Backlog
import EzvizBridge.Session.SingleFlight
import EzvizBridge.Session.Cooldown
import EzvizBridge.CloudKey.Spacing
import EzvizBridge.CloudKey.Lookup
import EzvizBridge.Enrollment.Progress
import EzvizBridge.Enrollment.Credentials
import EzvizBridge.Controls.Refusal
import EzvizBridge.Controls.Writes
import EzvizBridge.Controls.LostUpdate
import EzvizBridge.Controls.Rollback
import EzvizBridge.Transport.Buffers
import EzvizBridge.Alarms.Reload
import EzvizBridge.Alarms.Pages
import EzvizBridge.Alarms.Containers
import EzvizBridge.Transport.ClearSession
import EzvizBridge.Transport.Joining
import EzvizBridge.Transport.RtpHeader
import EzvizBridge.Transport.DuplicatedHeader
import EzvizBridge.Transport.Aac
import EzvizBridge.Transport.AudioSession
import EzvizBridge.Transport.AudioTimeline
import EzvizBridge.Transport.EarlyAudio
import EzvizBridge.Vtm.Delivery
import EzvizBridge.Vtm.ProtobufRoundTrip
import EzvizBridge.Vtm.Address
import EzvizBridge.Device.Search
import EzvizBridge.Transport.ImageRoundTrip
import EzvizBridge.Transport.SectionCheck
import EzvizBridge.Alarms.Titles
import EzvizBridge.Controls.ProbeSecrecy
import EzvizBridge.Storage.Durability
import EzvizBridge.Recordings.SdRefinement
import EzvizBridge.Snapshot.Service
import EzvizBridge.Device.Encryption
import EzvizBridge.Device.SdRecords
import EzvizBridge.Vtm.Redirects
import EzvizBridge.Errors.Redaction
import EzvizBridge.Metrics.Scrape
import EzvizBridge.Session.Health
import EzvizBridge.Vtm.Allocation
