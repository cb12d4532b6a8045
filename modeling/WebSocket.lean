import WebSocket.Close.Negotiation
import WebSocket.Decoder
import WebSocket.Gate.Outbound
import WebSocket.Handshake
import WebSocket.Mailbox
import WebSocket.Proofs.Bytes
import WebSocket.Proofs.Client.Conduct
import WebSocket.Proofs.Client.Rest
import WebSocket.Proofs.Decoder.Grammar
import WebSocket.Proofs.Close.Orders
import WebSocket.Proofs.Frame.Extent
import WebSocket.Proofs.Frame.Shortest
import WebSocket.Proofs.Frame.Sequence
import WebSocket.Proofs.Gate
import WebSocket.Proofs.Handshake.Acceptance
import WebSocket.Proofs.Machine.Decoding
import WebSocket.Proofs.MaskSource
import WebSocket.Proofs.Session.Accounts
import WebSocket.Proofs.Session.Order
import WebSocket.Proofs.Session.Parting
import WebSocket.Proofs.Session.Leftover
import WebSocket.Proofs.Decoder.Refusal
import WebSocket.Proofs.Session.Transfers
import WebSocket.Proofs.Session.Reconnection
import WebSocket.Proofs.Session.Declined
import WebSocket.Proofs.Session.Closes
import WebSocket.Proofs.Decoder.ToClose
import WebSocket.Proofs.Decoder.Memory
import WebSocket.Proofs.Decoder.Standstill
import WebSocket.Rehearsal.Play
