import Glossh.Lib.Bytes
import Glossh.Lib.Text
import Glossh.Lib.Rfc8439
import Glossh.Lib.Rfc8446Record
import Glossh.Lib.Hkdf
import Glossh.Mtls.Chacha20
import Glossh.Mtls.TinynaclChacha20
import Glossh.Mtls.Aead
import Glossh.Mtls.Counters
import Glossh.Mtls.SealFailure
import Glossh.Mtls.Record
import Glossh.Mtls.RecordLimits
import Glossh.Mtls.RecordExtent
import Glossh.Mtls.RecordNonces
import Glossh.Mtls.Hkdf
import Glossh.Mtls.HkdfBuffers
import Glossh.Mtls.LabelInfo
import Glossh.Mtls.KeySchedule
import Glossh.Mtls.KeyTree
import Glossh.Lib.Run
import Glossh.Lib.Region
import Glossh.Lib.Prog
import Glossh.Lib.Calls
import Glossh.Lib.Shared
import Glossh.Lib.Credit
import Glossh.Lib.SshPacket
import Glossh.Ssh.Load
import Glossh.Ssh.Messages
import Glossh.Ssh.HostKey
import Glossh.Ssh.HostKeyRace
import Glossh.Ssh.Buf
import Glossh.Ssh.Packetparser
import Glossh.Ssh.Sshcrypto
import Glossh.Ssh.Session
import Glossh.Ssh.Channel
import Glossh.Ssh.Isolation
import Glossh.Ssh.Chachapoly
import Glossh.Ssh.MainLoop
import Glossh.Ssh.ChannelEnd
import Glossh.Ssh.PacketLimit
import Glossh.Ssh.OutputFlow
import Glossh.Ssh.InputFlow
import Glossh.Ssh.Reassembly
import Glossh.Ssh.OutputRoom
import Glossh.Ssh.Sealing
import Glossh.Ssh.SendNonces
import Glossh.Ssh.PacketGet
import Glossh.Ssh.Drain
import Glossh.Ssh.Userauth
import Glossh.Ssh.Tinysshd
import Glossh.Ssh.Frame
import Glossh.Ssh.AuthGate
import Glossh.Ssh.KexRoom
import Glossh.Ssh.HandshakeRoom
import Glossh.Ssh.SessionRoom
import Glossh.Ssh.Descriptors
import Glossh.Ssh.Disconnect
import Glossh.Ssh.GlobalInit
import Glossh.Ssh.RecvSpace
import Glossh.Ssh.RecvClean
import Glossh.Ssh.Framing
import Glossh.Ssh.OutputEnd
import Glossh.Lib.Ledger
import Glossh.Ssh.Interpreter
import Glossh.Ssh.Ownership
import Glossh.Ssh.SessionFds
import Glossh.Ssh.ShellInput
import Glossh.Ssh.LineDiscipline
import Glossh.Ssh.PortAuth
import Glossh.Ssh.Rekey
import Glossh.Ssh.KeyExchange
import Glossh.Ssh.SessionBinding
import Glossh.Tinynacl.Poly1305
import Glossh.Tinynacl.Sort
import Glossh.Tinynacl.Sha2
import Glossh.Tinynacl.Fe25519
import Glossh.Tinynacl.X25519
