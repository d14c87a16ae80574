import Priestly.Lib.Bytes
import Priestly.Lib.Euclid
import Priestly.Lib.SafePrime
import Priestly.Lib.Interaction
import Priestly.Lib.PrefixTree
import Priestly.Lib.PriorityQueue
import Priestly.Lib.KeyedList
import Priestly.Lib.TextTemplate
import Priestly.Python.Builtins
import Priestly.Python.Base64
import Priestly.Python.Hashlib
import Priestly.Python.SampleRuntime
import Priestly.Crypto.Sha1
import Priestly.Crypto.Hkdf
import Priestly.Crypto.Covenant
import Priestly.Crypto.Huffman
import Priestly.Protocol.Packets
import Priestly.Protocol.Session
import Priestly.Protocol.Covenant
import Priestly.Protocol.Network
import Priestly.Protocol.Channel
import Priestly.Proofs.CovenantAlgebra
import Priestly.Proofs.Drivers
import Priestly.Proofs.DriverRuns
import Priestly.Proofs.DriverErrors
import Priestly.Proofs.Huffman
import Priestly.Proofs.HuffmanDecoding
import Priestly.Lib.MinimalCost
import Priestly.Proofs.HuffmanOptimality
import Priestly.Proofs.HuffmanTree
import Priestly.Proofs.Session
import Priestly.Proofs.SessionContract
import Priestly.Proofs.PasswordBinding
import Priestly.Proofs.Completeness
import Priestly.Proofs.Agreement
import Priestly.Proofs.Channel
import Priestly.Cli.Relay
import Priestly.Cli.ChatClient
import Priestly.Cli.Conversation
import Priestly.Proofs.Conversation
import Priestly.Cli.Hub
import Priestly.Proofs.MessageLoop
import Priestly.Lib.Fanout
import Priestly.Proofs.Relay
import Priestly.Lib.SharedStream
import Priestly.Transport.Ws
import Priestly.Cli.Sockets
import Priestly.Proofs.Interleaving
import Priestly.Js.Builtins
import Priestly.Ui.Covenant
import Priestly.Ui.Page
import Priestly.Proofs.UiCovenant
import Priestly.Proofs.BrowserHandshake
import Priestly.Lib.Pieces
import Priestly.Lib.StateExcept
import Priestly.Transport.Socket
import Priestly.Transport.Receive
import Priestly.Proofs.SocketReads
import Priestly.Transport.WireFrame
import Priestly.Proofs.Frames
import Priestly.Transport.Assembly
import Priestly.Proofs.Assembly
import Priestly.Proofs.Reassembly
import Priestly.Proofs.MessageGrammar
import Priestly.Transport.Handshake
import Priestly.Proofs.OpeningRequest
import Priestly.Proofs.TransportErrors
import Priestly.Transport.Closing
import Priestly.Proofs.CallWrites
import Priestly.Proofs.Lifecycle
import Priestly.Config.Jsonx
import Priestly.Proofs.ConfigLayers
import Priestly.Config.Rendering
import Priestly.Proofs.ConfigRenderings
import Priestly.Lib.OrderedDict
import Priestly.Python.Text
import Priestly.Proofs.Scanners
import Priestly.Proofs.CommentStripping
import Priestly.Lib.Exchanges
import Priestly.Cli.Node
import Priestly.Proofs.Authorization
import Priestly.Js.Encoding
import Priestly.Ui.Sealed
import Priestly.Proofs.BrowserSealing
import Priestly.Lib.Mailbox
import Priestly.Lib.EventRuns
import Priestly.Lib.Tickets
import Priestly.Ui.Scope
import Priestly.Ui.Component
import Priestly.Proofs.BrowserRouting
import Priestly.Proofs.BrowserCalls
import Priestly.Proofs.BrowserSequence
import Priestly.Proofs.BrowserGate
import Priestly.Proofs.BrowserLogin
import Priestly.Proofs.FrameGrammar
import Priestly.Proofs.LenientText
import Priestly.Proofs.CloseAgreement
import Priestly.Proofs.OpeningAgreement
import Priestly.Proofs.HeaderLines
import Priestly.Lib.Rfc3174
import Priestly.Proofs.Sha1Words
import Priestly.Lib.Refinement
import Priestly.Protocol.ByteLink
import Priestly.Proofs.ByteLink
import Priestly.Config.Load
import Priestly.Cli.Connect
import Priestly.Proofs.Joining
import Priestly.Proofs.Settling
import Priestly.Cli.Room
import Priestly.Proofs.Audience
import Priestly.Proofs.Direction
import Priestly.Proofs.Room
import Priestly.Lib.SquarePowers
import Priestly.Proofs.Guessing
import Priestly.Cli.Dialing
import Priestly.Proofs.Dialing
import Priestly.Proofs.BrowserConnections
import Priestly.Cli.Attacked
import Priestly.Proofs.Attacked
import Priestly.Proofs.PageLoop
import Priestly.Proofs.Visit
