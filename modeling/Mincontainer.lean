import Mincontainer.Effects.Program
import Mincontainer.Effects.Exec
import Mincontainer.Files.Path
import Mincontainer.Files.Tree
import Mincontainer.Bytes.Endian
import Mincontainer.Bytes.Codec
import Mincontainer.Bytes.Burst
import Mincontainer.Bytes.Serial
import Mincontainer.Bytes.Text
import Mincontainer.Bytes.Decimal
import Mincontainer.State.Record
import Mincontainer.Snapshot.Crc32
import Mincontainer.Snapshot.Serial
import Mincontainer.Snapshot.Manifest
import Mincontainer.Host.Calls
import Mincontainer.Host.Machine
import Mincontainer.State.Store
import Mincontainer.State.Text
import Mincontainer.State.Calendar
import Mincontainer.State.Clock
import Mincontainer.Resources.Cgroup
import Mincontainer.Resources.Network
import Mincontainer.Engine.Criu
import Mincontainer.Host.Frame
import Mincontainer.Effects.Monitor
import Mincontainer.Host.Rules
import Mincontainer.Snapshot.Writer
import Mincontainer.Snapshot.Reader
import Mincontainer.Snapshot.Format
import Mincontainer.Snapshot.Written
import Mincontainer.Host.Oblige
import Mincontainer.Snapshot.RoundTrip
import Mincontainer.Snapshot.Damage
import Mincontainer.Snapshot.Atomic
import Mincontainer.Snapshot.Footprint
import Mincontainer.Snapshot.Tiling
import Mincontainer.Snapshot.SignOff
import Mincontainer.Files.Given
import Mincontainer.Engine.Checkpoint
import Mincontainer.Engine.Restore
import Mincontainer.State.Update
import Mincontainer.Engine.CheckpointPhases
import Mincontainer.Engine.CheckpointErrors
import Mincontainer.Host.Leftovers
import Mincontainer.Host.Directories
import Mincontainer.Engine.RestorePhases
import Mincontainer.Engine.Reconcile
import Mincontainer.Engine.Unpacking
import Mincontainer.Engine.RestoreErrors
import Mincontainer.Effects.Processes
import Mincontainer.Files.Mounts
import Mincontainer.Linux.Credentials
import Mincontainer.Linux.Filters
import Mincontainer.Linux.Tasks
import Mincontainer.Container.Spawn
import Mincontainer.Container.Confinement
import Mincontainer.Container.Handed
import Mincontainer.Lifecycle.Pids
import Mincontainer.Migration.Frames
import Mincontainer.Migration.Transport
import Mincontainer.Migration.Migrate
import Mincontainer.Engine.RestoreFootprint
import Mincontainer.Migration.Footprint
import Mincontainer.Lifecycle.Commands
import Mincontainer.Effects.Background
import Mincontainer.Lifecycle.Node
import Mincontainer.Lifecycle.Footprint
import Mincontainer.Lifecycle.Migrated
import Mincontainer.Effects.Assure
import Mincontainer.Effects.Pool
import Mincontainer.Files.Links
import Mincontainer.Host.Symlinks
import Mincontainer.Engine.Preserved
import Mincontainer.Engine.Planted
import Mincontainer.Lifecycle.Wiring
import Mincontainer.Lifecycle.Signals
import Mincontainer.Lifecycle.Settled
import Mincontainer.Lifecycle.Latest
import Mincontainer.Lifecycle.Addresses
import Mincontainer.Migration.Wire
import Mincontainer.Migration.Gate
import Mincontainer.Lifecycle.Identity
import Mincontainer.Lifecycle.Interfaces
import Mincontainer.Migration.Honest
import Mincontainer.Snapshot.Traversal
import Mincontainer.Lifecycle.Truncation
import Mincontainer.Migration.Rounds
import Mincontainer.Migration.Remains
import Mincontainer.Migration.Commitment
import Mincontainer.Bytes.ReadLoop
import Mincontainer.Snapshot.Acceptance
import Mincontainer.Engine.Arguments
import Mincontainer.Engine.Mounts
import Mincontainer.Container.Inside
import Mincontainer.Container.Setup
import Mincontainer.Container.Isolation
import Mincontainer.Container.Hardening
import Mincontainer.Engine.Sockets
import Mincontainer.Engine.Liveness
import Mincontainer.Engine.Connections
import Mincontainer.Migration.Agreement
import Mincontainer.Lifecycle.Creation
import Mincontainer.Lifecycle.Ownership
import Mincontainer.Effects.Link
import Mincontainer.Bytes.Delimited
import Mincontainer.Lifecycle.PassedOn
import Mincontainer.Migration.Offline
import Mincontainer.Migration.Outgoing
import Mincontainer.Migration.Packed
import Mincontainer.Migration.Staged
import Mincontainer.Migration.Passage
import Mincontainer.Migration.Handover
import Mincontainer.Migration.Answers
import Mincontainer.Effects.Endings
import Mincontainer.Container.Parts
import Mincontainer.Container.Codes
