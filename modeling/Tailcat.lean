import Tailcat.Base.Blanks
import Tailcat.Base.Ctype
import Tailcat.Base.Cursor
import Tailcat.Base.Delivery
import Tailcat.Base.Exceptions
import Tailcat.Base.Family
import Tailcat.Base.Fields
import Tailcat.Base.Framing
import Tailcat.Base.Hex
import Tailcat.Base.Joint
import Tailcat.Base.Json
import Tailcat.Base.Locality
import Tailcat.Base.Machine
import Tailcat.Base.Octets
import Tailcat.Base.Pieces
import Tailcat.Base.Pipe
import Tailcat.Base.Shell
import Tailcat.Base.Talk
import Tailcat.Base.Wire
import Tailcat.Cli.AllowList
import Tailcat.Cli.Bootstrap
import Tailcat.Cli.DefaultServer
import Tailcat.Cli.EndToEnd
import Tailcat.Cli.Genkey
import Tailcat.Cli.Ports
import Tailcat.Cli.ProxyCommand
import Tailcat.Cli.RunClient
import Tailcat.Cli.Scp
import Tailcat.Cli.Serve
import Tailcat.Client.DataPlane
import Tailcat.Derp.Client
import Tailcat.Derp.Format
import Tailcat.Derp.Frame
import Tailcat.Derp.Http
import Tailcat.Derp.Map
import Tailcat.Derp.Send
import Tailcat.Derp.Transport
import Tailcat.Keys.Files
import Tailcat.Keys.KeyText
import Tailcat.Keys.SavedKey
import Tailcat.Keys.Saving
import Tailcat.Protocol.Address
import Tailcat.Protocol.Allocation
import Tailcat.Protocol.Base64url
import Tailcat.Protocol.Canonical
import Tailcat.Protocol.Cbor
import Tailcat.Protocol.Items
import Tailcat.Protocol.Meow
import Tailcat.Protocol.Metered
import Tailcat.Protocol.Republish
import Tailcat.Protocol.Revision
import Tailcat.Protocol.RoundTrip
import Tailcat.Protocol.Skip
import Tailcat.Protocol.Termination
import Tailcat.Protocol.Types
import Tailcat.Relay.Connection
import Tailcat.Relay.Faulty
import Tailcat.Relay.Forward
import Tailcat.Relay.LocalForward
import Tailcat.Relay.Network
import Tailcat.Relay.ReadError
import Tailcat.Relay.ServedPorts
import Tailcat.Relay.Table
import Tailcat.Relay.Transparent
import Tailcat.Rendezvous.Agreement
import Tailcat.Rendezvous.Retry
import Tailcat.Rendezvous.Server
import Tailcat.Resolver.Classify
import Tailcat.Resolver.Decode
import Tailcat.Resolver.Dns
import Tailcat.Resolver.Lookup
import Tailcat.Resolver.Message
import Tailcat.Resolver.Txt
import Tailcat.Server.DataPlane
import Tailcat.Server.Isolation
import Tailcat.Server.Policy
import Tailcat.Server.Routing
import Tailcat.Server.Serve
import Tailcat.Server.Source
import Tailcat.Server.Tables
import Tailcat.Socks.Handshake
import Tailcat.Socks.Proxy
import Tailcat.Socks.Replies
import Tailcat.Socks.Takeover
import Tailcat.Ssh.Authentication
import Tailcat.Ssh.AuthorizedKeys
import Tailcat.Ssh.Bridge
import Tailcat.Ssh.Join
import Tailcat.Ssh.KeySources
import Tailcat.Ssh.Requests
import Tailcat.Ssh.Service
import Tailcat.Ssh.Stdin
import Tailcat.Ssh.Winsize
import Tailcat.Wireguard.DerpPeer
import Tailcat.Wireguard.Engine
import Tailcat.Wireguard.InnerPackets
import Tailcat.Wireguard.Lwip
import Tailcat.Wireguard.Plain
import Tailcat.Wireguard.Session
import Tailcat.Wireguard.Tai64n
import Tailcat.Wireguard.ThirdParties
import Tailcat.Wireguard.Transport
