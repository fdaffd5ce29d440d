import Qsmp.Common.Memory
import Qsmp.Common.CounterMode
import Qsmp.Common.Schedules
import Qsmp.Common.Duet
import Qsmp.Common.Transcripts
import Qsmp.Config
import Qsmp.Common.LittleEndian
import Qsmp.Qsc.Intutils
import Qsmp.Qsc.Keccak
import Qsmp.Qsc.Rcs
import Qsmp.Common.Rijndael
import Qsmp.Qsc.RcsBlock
import Qsmp.Common.Intrinsics
import Qsmp.Qsc.RcsSimd
import Qsmp.Qsc.RcsCtr
import Qsmp.Common.KeccakF
import Qsmp.Qsc.KeccakPermute
import Qsmp.Qsc.Blocks
import Qsmp.Common.Sponge
import Qsmp.Qsc.Kmac
import Qsmp.Qsc.Hashes
import Qsmp.Packet
import Qsmp.Qsc.Encoding
import Qsmp.Qsc.Base64
import Qsmp.Qsc.Stringutils
import Qsmp.Common.Lines
import Qsmp.Qsc.LineBreaks
import Qsmp.Qsc.Timestamp
import Qsmp.Common.Heap
import Qsmp.Qsc.Memutils
import Qsmp.Qsc.Fileutils
import Qsmp.Logger
import Qsmp.PublicKey
import Qsmp.PublicKey.Reading
import Qsmp.Channel.Connection
import Qsmp.Channel.Correctness
import Qsmp.Channel.Integrity
import Qsmp.Channel.Transcript
import Qsmp.Channel.Absorption
import Qsmp.Channel.Limits
import Qsmp.Channel.Keystream
import Qsmp.Channel.Builds
import Qsmp.Channel.Streaming
import Qsmp.Session.Keys
import Qsmp.Session.Startup
import Qsmp.Session.Exchange
import Qsmp.Kex.State
import Qsmp.Kex.Duplex
import Qsmp.Kex.Simplex
import Qsmp.Qsc.Falcon
import Qsmp.Kex.Falcon
import Qsmp.Kex.Configuration
import Qsmp.Kex.Driver
import Qsmp.Kex.Stages
import Qsmp.Kex.Runs
import Qsmp.Common.Preconditions
import Qsmp.Kex.Buffers
import Qsmp.Common.Receipts
import Qsmp.Kex.Reports
import Qsmp.Kex.Sequencing
import Qsmp.Kex.Messages
import Qsmp.Kex.Agreement
import Qsmp.Kex.ReturnCode
import Qsmp.Kex.Checks
import Qsmp.Common.Sessions
import Qsmp.Common.Terms
import Qsmp.Kex.Protocol
import Qsmp.Kex.Refinement
import Qsmp.Symbolic.Network
import Qsmp.Symbolic.Signatures
import Qsmp.Symbolic.Secrecy
import Qsmp.Symbolic.Authentication
import Qsmp.Common.Histories
import Qsmp.Common.Leases
import Qsmp.Server.Connections
import Qsmp.Server.Laws
import Qsmp.Server.Slots
import Qsmp.Server.Storage
import Qsmp.Server.Broadcast
import Qsmp.Channel.Sealing
import Qsmp.Ratchet.Handlers
import Qsmp.Ratchet.Letters
import Qsmp.Ratchet.Agreement
import Qsmp.Ratchet.Crossing
import Qsmp.Common.Sharing
import Qsmp.Ratchet.Isolation
import Qsmp.Receive.Loop
import Qsmp.Receive.Bounds
import Qsmp.Common.Framing
import Qsmp.Receive.Server
import Qsmp.Receive.Framing
import Qsmp.Receive.Lengths
import Qsmp.Receive.Parsing
import Qsmp.Receive.Payload
import Qsmp.Receive.KeepAlive
import Qsmp.Receive.Simplex
import Qsmp.Keychain.Functions
import Qsmp.Keychain.Removal
import Qsmp.Keychain.Serialization
