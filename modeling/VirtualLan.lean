import VirtualLan.Library.Dict
import VirtualLan.Library.Table
import VirtualLan.Library.History
import VirtualLan.Library.Chronicle
import VirtualLan.Library.Registry
import VirtualLan.Library.Program
import VirtualLan.Library.Segmentation
import VirtualLan.Library.Interleaving
import VirtualLan.Library.Loop
import VirtualLan.Library.Splitting
import VirtualLan.Library.Repetition
import VirtualLan.Library.Memory
import VirtualLan.Library.Cells
import VirtualLan.Library.Words
import VirtualLan.Text
import VirtualLan.Zlib
import VirtualLan.StoredZlib
import VirtualLan.PaddedZlib
import VirtualLan.Packet
import VirtualLan.Identity
import VirtualLan.Membership
import VirtualLan.Tokenizer
import VirtualLan.Lz4
import VirtualLan.LiteralLz4
import VirtualLan.Lz4Decoder
import VirtualLan.Lz4Format
import VirtualLan.Lz4Encoder
import VirtualLan.Lz4Optimal
import VirtualLan.Lz4Search
import VirtualLan.Callbacks
import VirtualLan.Relay
import VirtualLan.Network
import VirtualLan.Reaction
import VirtualLan.Stream
import VirtualLan.Upkeep
import VirtualLan.Process
import VirtualLan.Winsock
import VirtualLan.Threads
import VirtualLan.Traffic
import VirtualLan.Proofs.RelaySteps
import VirtualLan.Proofs.LobbyOwnership
import VirtualLan.Proofs.HandlerCleanup
import VirtualLan.Proofs.Addresses
import VirtualLan.Proofs.Routing
import VirtualLan.Proofs.Responses
import VirtualLan.Proofs.Tokenizer
import VirtualLan.Proofs.Delivery
import VirtualLan.Proofs.Requests
import VirtualLan.Proofs.Conversation
import VirtualLan.Proofs.Agreement
import VirtualLan.Proofs.Fragments
import VirtualLan.Proofs.ServerFraming
import VirtualLan.Proofs.ClientFraming
import VirtualLan.Proofs.Interleaving
import VirtualLan.Proofs.ReplyCodec
import VirtualLan.Proofs.Forgery
import VirtualLan.Proofs.Races
import VirtualLan.Proofs.SerialRuns
import VirtualLan.Proofs.Turns
import VirtualLan.Proofs.Sockets
import VirtualLan.Proofs.Lifetime
import VirtualLan.Proofs.Resync
import VirtualLan.Proofs.AddressTest
import VirtualLan.Proofs.Survival
import VirtualLan.Proofs.ReceiveBounds
import VirtualLan.Proofs.PacketParser
import VirtualLan.Proofs.Versions
import VirtualLan.Proofs.Injection
import VirtualLan.Proofs.MessageSize
import VirtualLan.Proofs.Identity
import VirtualLan.Proofs.CodecPairs
import VirtualLan.Proofs.Channels
import VirtualLan.Proofs.EndToEnd
import VirtualLan.Proofs.Views
import VirtualLan.Proofs.Settling
import VirtualLan.Proofs.InterfaceLoop
import VirtualLan.Proofs.Console
import VirtualLan.Proofs.Startup
import VirtualLan.Proofs.DecoderCopies
import VirtualLan.Proofs.Decoder
import VirtualLan.Proofs.Blocks
import VirtualLan.Proofs.Encoder
import VirtualLan.Proofs.BlockCodec
import VirtualLan.Proofs.Optimal
import VirtualLan.Proofs.Search
