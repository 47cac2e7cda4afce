import OpenCsv.Lib.Base64
import OpenCsv.Lib.Bytes
import OpenCsv.Lib.Groups
import OpenCsv.Lib.Json
import OpenCsv.Lib.Limbs
import OpenCsv.Lib.Result
import OpenCsv.Lib.Sha256
import OpenCsv.Lib.Sorting
import OpenCsv.Lib.System
import OpenCsv.Lib.Utf8
import OpenCsv.Core.Digest
import OpenCsv.Core.Anchor
import OpenCsv.Core.Batch
import OpenCsv.Core.Coin
import OpenCsv.Core.Chain
import OpenCsv.Kernel.Accept
import OpenCsv.Core.Accept
import OpenCsv.Core.NoDoubleSpend
import OpenCsv.Pcd.Statement
import OpenCsv.Pcd.Value
import OpenCsv.Pcd.Circuit
import OpenCsv.Pcd.Prove
import OpenCsv.Pcd.Binding
import OpenCsv.Pcd.OneAnchor
import OpenCsv.Cbf.Block
import OpenCsv.Cbf.Scan
import OpenCsv.Ffi.Hex
import OpenCsv.Ffi.Snapshot
import OpenCsv.Ffi.ScanExport
import OpenCsv.Ffi.WalletJson
import OpenCsv.Ffi.Wallet
import OpenCsv.Ffi.WalletOps
import OpenCsv.Ffi.PendingExport
import OpenCsv.Ffi.Secrets
import OpenCsv.Ffi.Credits
import OpenCsv.Ffi.CoinStatus
import OpenCsv.Ffi.Reservation
import OpenCsv.Account.Issuance
import OpenCsv.Lib.Call
import OpenCsv.Lib.Table
import OpenCsv.Account.Store
import OpenCsv.Account.Env
import OpenCsv.Account.Funding
import OpenCsv.Account.BatchProof
import OpenCsv.Account.Planning
import OpenCsv.Account.Mint
import OpenCsv.Account.Signing
import OpenCsv.Account.Delivery
import OpenCsv.Account.Replacement
import OpenCsv.Account.BatchReplacement
import OpenCsv.Account.Receive
import OpenCsv.Account.Run
import OpenCsv.Account.Steps
import OpenCsv.Account.Trace
import OpenCsv.Account.TraceProof
import OpenCsv.Account.TraceBatch
import OpenCsv.Account.TraceSign
import OpenCsv.Account.TraceDeliver
import OpenCsv.Account.TraceReplace
import OpenCsv.Account.TraceRun
import OpenCsv.Account.Reopen
import OpenCsv.Account.Restore
import OpenCsv.Account.Ledger
import OpenCsv.Core.KernelAgreement
import OpenCsv.Core.ReadBack
import OpenCsv.Core.CrossCheck
import OpenCsv.Core.CopyGrief
import OpenCsv.Account.RegistryFloor
import OpenCsv.Account.RestoreFailure
import OpenCsv.Account.RestoreReopen
import OpenCsv.Bitcoin.Chain
import OpenCsv.Cbf.FullScan
import OpenCsv.Bitcoin.Agreement
import OpenCsv.Cbf.Wire
import OpenCsv.Lib.Merkle
import OpenCsv.Cbf.Verified
import OpenCsv.Cbf.Determined
import OpenCsv.Cbf.Lineage
import OpenCsv.Cbf.FilterAgreement
import OpenCsv.Bitcoin.Refresh
import OpenCsv.AnchorServer.Funding
import OpenCsv.Lib.Words
import OpenCsv.Bitcoin.Index
import OpenCsv.Cbf.IndexFile
import OpenCsv.Bitcoin.BatchV2
import OpenCsv.Bitcoin.BatchFees
import OpenCsv.Bitcoin.BatchWire
import OpenCsv.Bitcoin.BatchPool
import OpenCsv.Lib.Slots
import OpenCsv.Bitcoin.BatchShares
import OpenCsv.Lib.Compact
import OpenCsv.Lib.Panic
import OpenCsv.Cbf.Difficulty
import OpenCsv.Cbf.HeaderChain
import OpenCsv.Cbf.Gcs
import OpenCsv.Cbf.Client
import OpenCsv.Cbf.ClientSync
import OpenCsv.Cbf.FollowPeer
import OpenCsv.Cbf.ClientUse
import OpenCsv.Kernel.Audit
import OpenCsv.Core.Audit
import OpenCsv.Kernel.SupplyCopies
import OpenCsv.Core.AnchorCodec
import OpenCsv.Kernel.Hash
import OpenCsv.Core.BatchEnvelope
import OpenCsv.Core.Instrument
import OpenCsv.Core.Preimages
import OpenCsv.Cli.GossipFrame
import OpenCsv.Cli.Session
import OpenCsv.Cli.SessionLoad
import OpenCsv.Cli.SessionIngest
import OpenCsv.Cli.SessionSigning
import OpenCsv.Cli.IngestSteps
import OpenCsv.Cli.SessionRuns
import OpenCsv.Cli.Idempotence
import OpenCsv.Cli.ManifestChain
import OpenCsv.Cli.SessionInvariant
import OpenCsv.Account.SoloReplacement
import OpenCsv.Bitcoin.BatchV1
import OpenCsv.Cbf.RoundTrip
import OpenCsv.Cbf.Guarded
import OpenCsv.Bitcoin.BatchWeight
import OpenCsv.Cbf.Retarget
import OpenCsv.Cbf.GcsCodec
import OpenCsv.Cbf.SipOrbit
import OpenCsv.Lib.HashChain
import OpenCsv.Cbf.Attestation
import OpenCsv.Cbf.Outpoint
import OpenCsv.Cbf.OutpointExact
import OpenCsv.Cbf.CompactTarget
import OpenCsv.Pcd.ValueGadget
import OpenCsv.Lib.OverwriteSponge
import OpenCsv.Pcd.SpongeCircuit
import OpenCsv.Bitcoin.Bech32
import OpenCsv.Cli.FrameCodec
import OpenCsv.Lib.Tally
import OpenCsv.Ffi.BalanceExact
import OpenCsv.Ffi.CoinSelection
import OpenCsv.Account.Reselection
import OpenCsv.Account.RollingCaps
import OpenCsv.Account.Observation
import OpenCsv.Cli.SessionAcceptance
import OpenCsv.Cli.SessionCrash
import OpenCsv.Cli.SessionReopen
import OpenCsv.Lib.Recency
import OpenCsv.Pcd.SetupCache
import OpenCsv.Cli.FileChain
import OpenCsv.Cli.HttpChain
import OpenCsv.Account.ReplacementLineage
