import UniversalMesh.Bundle.Ack
import UniversalMesh.Bundle.Pressure
import UniversalMesh.Bundle.Transfer
import UniversalMesh.Control.Events
import UniversalMesh.Control.Framing
import UniversalMesh.Control.TokenDelegation
import UniversalMesh.Daemon.ApplicationData
import UniversalMesh.Daemon.Idempotency
import UniversalMesh.Daemon.LossRepair
import UniversalMesh.Daemon.RelayDestination
import UniversalMesh.Daemon.RelayQuota
import UniversalMesh.Daemon.RelayRelease
import UniversalMesh.Daemon.Resumption
import UniversalMesh.Daemon.SessionBus
import UniversalMesh.Discovery.Dht
import UniversalMesh.Discovery.Hints
import UniversalMesh.Handshake.Machine
import UniversalMesh.Handshake.Psk
import UniversalMesh.Relay.Onion
import UniversalMesh.Relay.Quota
import UniversalMesh.Routing.Failure
import UniversalMesh.Routing.Paths
import UniversalMesh.Routing.Request
import UniversalMesh.Session.Accounts
import UniversalMesh.Session.AckAgreement
import UniversalMesh.Session.KeyAgreement
import UniversalMesh.Session.PathValidation
import UniversalMesh.Session.StreamLimits
import UniversalMesh.Session.StreamSlots
import UniversalMesh.Trust.Graph
import UniversalMesh.Trust.RecoveryBatch
import UniversalMesh.Trust.RevocationBatch
