import PqcScan.Library.Dict
import PqcScan.Library.Fallible
import PqcScan.Library.Pairing
import PqcScan.Library.Table
import PqcScan.Library.Interleaving
import PqcScan.Library.Newest
import PqcScan.Library.Transition
import PqcScan.Python.Value
import PqcScan.Core.Types
import PqcScan.Core.Parity
import PqcScan.Store.Schema
import PqcScan.Store.Bundle
import PqcScan.Store.Repo
import PqcScan.Store.Ingest
import PqcScan.Store.Effect
import PqcScan.Store.Atomicity
import PqcScan.Store.Attribution
import PqcScan.Store.HostRows
import PqcScan.Store.Retention
import PqcScan.Daemon.Fleet
import PqcScan.Daemon.Effect
import PqcScan.Daemon.Labels
import PqcScan.Daemon.Authorization
import PqcScan.Daemon.Deduplication
import PqcScan.Daemon.Interleaving
import PqcScan.Daemon.Barrier
import PqcScan.Daemon.Reapproval
import PqcScan.Daemon.Race
import PqcScan.Daemon.RaceOrder
import PqcScan.Library.Program
import PqcScan.Library.Outbox
import PqcScan.Agent.Report
import PqcScan.Agent.Conservation
import PqcScan.Library.Coverage
import PqcScan.Probes.SshTokens
import PqcScan.Runner.Targets
import PqcScan.Probes.Stream
import PqcScan.Probes.ServerHello
import PqcScan.Probes.ServerFlight
import PqcScan.Probes.Quic
import PqcScan.Probes.QuicPacket
import PqcScan.Library.Framing
import PqcScan.Probes.Handshake
import PqcScan.Probes.CertChain
import PqcScan.Probes.CertChainTls13
import PqcScan.Store.Baselines
import PqcScan.Store.ScanRows
import PqcScan.Daemon.Starting
import PqcScan.Library.Grouping
import PqcScan.Core.Bands
import PqcScan.Store.Summary
import PqcScan.Store.LatestView
import PqcScan.Store.Rollup
import PqcScan.Store.RoundTrip
import PqcScan.Library.Replay
import PqcScan.Agent.Delivery
import PqcScan.Agent.Replay
import PqcScan.Agent.Loop
import PqcScan.Library.Difference
import PqcScan.Core.Drift
import PqcScan.Store.Diff
import PqcScan.Store.Merge
import PqcScan.Library.Insertion
import PqcScan.Core.Scores
import PqcScan.Library.Slices
import PqcScan.Probes.ByteOrder
import PqcScan.Probes.SniffLive
import PqcScan.Probes.Pcap
import PqcScan.Probes.PcapFiles
import PqcScan.Probes.IkePacket
import PqcScan.Probes.IkeRoundTrip
import PqcScan.Probes.KrbAsn1
import PqcScan.Probes.KrbRoundTrip
import PqcScan.Probes.KrbReplies
import PqcScan.Probes.TlsHello
import PqcScan.Probes.HelloRoundTrip
import PqcScan.Probes.HelloBuilders
import PqcScan.Probes.TlsVersions
import PqcScan.Core.Names
import PqcScan.Core.Hybrid
import PqcScan.Core.Deadlines
import PqcScan.Library.Ranking
import PqcScan.Core.Agreement
import PqcScan.Compliance.Engine
import PqcScan.Compliance.Frameworks
import PqcScan.Compliance.Coherence
import PqcScan.Library.Tiling
import PqcScan.Probes.QuicFrames
import PqcScan.Probes.QuicJoin
import PqcScan.Compliance.KeySizes
import PqcScan.Core.Canonical
import PqcScan.Probes.Severity
import PqcScan.Library.Emission
import PqcScan.Probes.CipherLists
import PqcScan.Probes.Exclusion
import PqcScan.Probes.CipherSuites
import PqcScan.Probes.StartTls
import PqcScan.Renderers.Cbom
import PqcScan.Library.FirstSeen
import PqcScan.Probes.Decode
import PqcScan.Probes.Captures
import PqcScan.Probes.Negotiated
import PqcScan.Library.Staging
import PqcScan.Runner.Scan
import PqcScan.Runner.Isolation
import PqcScan.Renderers.Sarif
import PqcScan.Store.Markers
import PqcScan.Core.Remediation
import PqcScan.Python.Utf8
import PqcScan.Probes.Encapsulation
import PqcScan.Probes.SshKexinit
import PqcScan.Library.Patterns
import PqcScan.Library.Capping
import PqcScan.Python.Files
import PqcScan.Probes.FileScans
import PqcScan.Probes.Terraform
import PqcScan.Probes.Cloudformation
import PqcScan.Probes.TerraformBlocks
import PqcScan.Library.TokenBucket
import PqcScan.Daemon.Limiter
import PqcScan.Core.Register
import PqcScan.Python.Lines
import PqcScan.Library.Joining
import PqcScan.Core.Ports
import PqcScan.Probes.JavaPolicy
import PqcScan.Probes.JavaFloors
import PqcScan.Core.Migration
import PqcScan.Library.Partition
import PqcScan.Renderers.Bukukerja
import PqcScan.Probes.MeshPolicy
import PqcScan.Probes.RsaSizes
import PqcScan.Library.Base64
import PqcScan.Probes.HostKeys
import PqcScan.Library.Ascent
import PqcScan.Probes.FileChain
import PqcScan.Library.Fences
import PqcScan.Probes.DbCrypto
import PqcScan.Probes.DbBlocks
import PqcScan.Probes.DbBodies
import PqcScan.Probes.DbKeys
import PqcScan.Probes.ZeekLogs
import PqcScan.Probes.ZeekEncodings
import PqcScan.Probes.ZeekAgreement
import PqcScan.Library.Lexing
import PqcScan.Core.Srcstrip
import PqcScan.Core.LexicalForms
import PqcScan.Core.SourceMask
import PqcScan.Library.Spans
import PqcScan.Core.SourceRecall
import PqcScan.Probes.CodeTsPhp
import PqcScan.Library.Regions
import PqcScan.Probes.Records
import PqcScan.Probes.Elf
import PqcScan.Probes.PeImports
import PqcScan.Probes.MachO
import PqcScan.Probes.BinaryCrypto
import PqcScan.Runner.EventBus
import PqcScan.Runner.EventOrder
import PqcScan.Library.Walk
import PqcScan.Core.Pyast
import PqcScan.Core.Spelling
import PqcScan.Library.Past
import PqcScan.Daemon.Guard
import PqcScan.Probes.SshHandshake
import PqcScan.Library.EventStream
import PqcScan.Python.JsonText
import PqcScan.Daemon.LiveProgress
import PqcScan.Daemon.Exports
import PqcScan.Probes.MssqlTls
import PqcScan.Probes.KrbRequest
import PqcScan.Probes.KrbDialogue
import PqcScan.Library.Queries
import PqcScan.Store.Bulk
import PqcScan.Core.KeyHealth
import PqcScan.Probes.KeyReuse
