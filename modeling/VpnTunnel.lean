import VpnTunnel.Bytes.Span
import VpnTunnel.Bytes.Access
import VpnTunnel.Bytes.Endian
import VpnTunnel.Bytes.Store
import VpnTunnel.Bits.WordBitmap
import VpnTunnel.Machine.Run
import VpnTunnel.Machine.Tally
import VpnTunnel.Machine.Epochs
import VpnTunnel.Machine.Matching
import VpnTunnel.Machine.Unwind
import VpnTunnel.Machine.Ownership
import VpnTunnel.Machine.LongestMatch
import VpnTunnel.Machine.Retract
import VpnTunnel.Wire.Format
import VpnTunnel.Wire.FormatTheorems
import VpnTunnel.Wire.MacTheorems
import VpnTunnel.Wire.AccessTheorems
import VpnTunnel.Wire.PacketTheorems
import VpnTunnel.Crypto.Primitives
import VpnTunnel.Crypto.TimestampTheorems
import VpnTunnel.Crypto.Sample
import VpnTunnel.Crypto.Attacker
import VpnTunnel.Crypto.Kdf
import VpnTunnel.Crypto.KdfTheorems
import VpnTunnel.Symbolic.Terms
import VpnTunnel.Symbolic.Primitives
import VpnTunnel.Noise.Handshake
import VpnTunnel.Noise.InPlaceTheorems
import VpnTunnel.Noise.WriterTheorems
import VpnTunnel.Noise.OneExchangeTheorems
import VpnTunnel.Noise.ReaderTheorems
import VpnTunnel.Noise.ExchangeTheorems
import VpnTunnel.Noise.CodecTheorems
import VpnTunnel.Noise.ReplayTheorems
import VpnTunnel.Noise.SecrecyTheorems
import VpnTunnel.Transport.ReplayWindow
import VpnTunnel.Transport.ReplayWindowTheorems
import VpnTunnel.Transport.Session
import VpnTunnel.Transport.SessionTheorems
import VpnTunnel.Transport.SealTheorems
import VpnTunnel.Transport.DeliveryTheorems
import VpnTunnel.Args
import VpnTunnel.Relay.Relay
import VpnTunnel.Relay.History
import VpnTunnel.Relay.StepTheorems
import VpnTunnel.Relay.NonceTheorems
import VpnTunnel.Relay.OutcomeTheorems
import VpnTunnel.Relay.RejectTheorems
import VpnTunnel.Relay.TrafficTheorems
import VpnTunnel.Relay.EndpointTheorems
import VpnTunnel.Relay.TunTheorems
import VpnTunnel.Relay.SendTheorems
import VpnTunnel.Relay.InstallTheorems
import VpnTunnel.Relay.RetryTheorems
import VpnTunnel.Relay.AccountTheorems
import VpnTunnel.Relay.VerdictTheorems
import VpnTunnel.Relay.Loop
import VpnTunnel.Relay.LoopTheorems
import VpnTunnel.Relay.BatchTheorems
import VpnTunnel.Relay.CounterTheorems
import VpnTunnel.Network.Model
import VpnTunnel.Network.SecrecyTheorems
import VpnTunnel.Network.TunnelTheorems
import VpnTunnel.Network.OriginTheorems
import VpnTunnel.Network.AgreementTheorems
import VpnTunnel.Network.DeliveryTheorems
import VpnTunnel.Network.RecoveryTheorems
import VpnTunnel.Network.Restart
import VpnTunnel.Network.RestartTheorems
import VpnTunnel.Network.ForwardSecrecyTheorems
import VpnTunnel.Netcfg.Changes
import VpnTunnel.Netcfg.ChangesTheorems
import VpnTunnel.Netcfg.Address
import VpnTunnel.Netcfg.Subnet
import VpnTunnel.Netcfg.SubnetTheorems
import VpnTunnel.Netcfg.Host
import VpnTunnel.Netcfg.Routes
import VpnTunnel.Netcfg.RoutesTheorems
import VpnTunnel.Netcfg.Programs
import VpnTunnel.Netcfg.ProgramsTheorems
import VpnTunnel.Netcfg.Firewall
import VpnTunnel.Netcfg.FirewallTheorems
import VpnTunnel.Netcfg.Ipv6Theorems
import VpnTunnel.Bits.Base64
import VpnTunnel.Bits.Regroup
import VpnTunnel.Crypto.Base64
import VpnTunnel.Crypto.Base64Theorems
import VpnTunnel.Keys
import VpnTunnel.KeysTheorems
import VpnTunnel.Machine.Scope
import VpnTunnel.App.Arguments
import VpnTunnel.App.ArgumentsTheorems
import VpnTunnel.App.Station
import VpnTunnel.App.Client
import VpnTunnel.App.Server
import VpnTunnel.App.SessionTheorems
import VpnTunnel.App.DeviceTheorems
import VpnTunnel.App.ClientTheorems
import VpnTunnel.App.ServerTheorems
import VpnTunnel.Machine.Schedule
import VpnTunnel.Netcfg.Spawn
import VpnTunnel.Netcfg.SpawnTheorems
import VpnTunnel.Network.IndexTheorems
import VpnTunnel.Network.Leak
import VpnTunnel.Network.LeakTheorems
import VpnTunnel.Relay.BoundTheorems
