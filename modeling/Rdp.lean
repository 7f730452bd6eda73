import Rdp.Codec.Rle16.Decode
import Rdp.Codec.Rle16.Writes
import Rdp.Codec.Rle16.Panic
import Rdp.Codec.Rle32.Channels
import Rdp.Codec.Rle32.Reject
import Rdp.Model.Data.Length
import Rdp.Model.Data.RoundTrip
import Rdp.Core.Global.Negotiated
import Rdp.Core.Global.Grouping
import Rdp.Model.Link.Receive
import Rdp.Core.Tpkt.Framing
import Rdp.Core.X224.Negotiation
import Rdp.Nla.Cssp.Release
import Rdp.Nla.Ntlm.Session
import Rdp.Nla.Ntlm.Challenge
import Rdp.Codec.Rle16.Order
import Rdp.Core.Mcs.Framing
import Rdp.Core.Client.RestrictedAdmin
import Rdp.Core.Event.Layout
import Rdp.Core.Global.Update
import Rdp.Core.Global.Delivery
import Rdp.Core.Global.Lists
import Rdp.Core.Global.Counts
import Rdp.Core.Global.RoundTrip
import Rdp.Core.Mcs.Delivery
import Rdp.Nla.Cssp.RoundTrip
import Rdp.Nla.Cssp.Splitting
import Rdp.Nla.Cssp.Totality
import Rdp.Core.License.Gate
import Rdp.Core.Gcc.Request
import Rdp.Core.Per.Strings
import Rdp.Core.Mcs.Ids
import Rdp.Core.Global.Capabilities
import Rdp.Core.Gcc.Blocks
import Rdp.Core.Gcc.Response
import Rdp.Core.Sec.Version
import Rdp.Core.Mcs.Channels
import Rdp.Bin.Mstsc.Transfer
import Rdp.Bin.Mstsc.Bounds
import Rdp.Bin.Mstsc.Receive
import Rdp.Model.Data.Check
import Rdp.Nla.Rc4.Stream
import Rdp.Nla.Ntlm.Duplex
import Rdp.Bin.Mstsc.Keyboard
import Rdp.Bin.Mstsc.Painting
import Rdp.Bin.Mstsc.Threads
import Rdp.Bin.Mstsc.Farewell
import Rdp.Bin.Mstsc.Main
import Rdp.Core.Client.Authenticating
import Rdp.Core.Client.Protection
