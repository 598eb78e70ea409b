import EarthRise.Theory.Outbox
import EarthRise.Theory.OutboxKeys
import EarthRise.Theory.Framing
import EarthRise.Theory.AckedLink
import EarthRise.Theory.EconomyStore
import EarthRise.Theory.PersistenceThread
import EarthRise.Theory.BitSchema
import EarthRise.Theory.WarmBlob
import EarthRise.Theory.CookedFits
import EarthRise.Theory.Damage
import EarthRise.Theory.Scheduler
import EarthRise.Theory.SnapshotCodec
import EarthRise.Theory.Reordering
import EarthRise.Theory.SnapshotJobs
import EarthRise.Theory.InterestGrid
import EarthRise.Theory.Starvation
import EarthRise.Theory.Replication.Eviction
import EarthRise.Theory.Replication.Reentry
import EarthRise.Theory.Replication.Draining
import EarthRise.Theory.Reconnect
import EarthRise.Theory.FixedStep
import EarthRise.Theory.FrameArena
import EarthRise.Theory.Telemetry
import EarthRise.Theory.DdsParse
import EarthRise.Theory.UniversePrint
import EarthRise.Theory.Starmap
import EarthRise.Theory.VoiceHandles
import EarthRise.Theory.ConnectionPool
import EarthRise.Theory.Travel
import EarthRise.Theory.ClientApp
import EarthRise.Theory.Login
import EarthRise.Theory.Pbkdf2
import EarthRise.Theory.CmoParse
import EarthRise.Theory.WavParse
import EarthRise.Theory.Handles
import EarthRise.Theory.KnownContacts
import EarthRise.Theory.SensorCoverage
import EarthRise.Theory.Gating
import EarthRise.Theory.Tokens
import EarthRise.Theory.KeyAgreement
import EarthRise.Theory.EcsRefinement
import EarthRise.Theory.EcsReuse
import EarthRise.Theory.Shard.SimHash
import EarthRise.Theory.Shard.LootExpiry
import EarthRise.Theory.Shard.Attachment
import EarthRise.Theory.Shard.Tackle
import EarthRise.Theory.Shard.Abilities
import EarthRise.Theory.Shard.Resources
import EarthRise.Theory.Shard.Sites
import EarthRise.Theory.Shard.Builds
