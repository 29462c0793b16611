import Futils.Quic.Stream.Completeness
import Futils.Quic.Stream.FinSafety
import Futils.Quic.Stream.Retransmission
import Futils.Quic.Crypto.Handshaker
import Futils.Quic.Ack.Acknowledgement
import Futils.Qpack.Session
import Futils.Quic.Crypto.Receive
import Futils.Quic.Path.Verifier
import Futils.Http2.ReadFrames
import Futils.Http1.Chunked
import Futils.Quic.Packet.Coalesced
import Futils.Quic.Stream.SendCredit
import Futils.Quic.Stream.RecvCredit
import Futils.Quic.Stream.FinalSize
import Futils.Quic.Stream.Creation
import Futils.Quic.ConnId.Retirement
import Futils.Quic.ConnId.Issuer
import Futils.Quic.TransportParam.RoundTrip
import Futils.Qpack.Eviction
import Futils.Http2.Sending
import Futils.Http2.Body
import Futils.Http1.RoundTrip
import Futils.Http1.Cookie
import Futils.Http1.Injection
import Futils.Number.Exact
import Futils.Unicode.WellFormed
import Futils.Quic.Ack.Tally
import Futils.Quic.Ack.LossResponse
import Futils.Util.Base64
import Futils.Util.Crc
import Futils.Tls.Asn1
