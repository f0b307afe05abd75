import Mincontainer.State.Record

set_option relaxedAutoImplicit false
set_option autoImplicit false

/-!
# The snapshot manifest

Everything about a checkpoint that is not raw image bytes. The wall-clock cost of the dump, which
no function reads back, is left out.
-/

namespace Mincontainer

/-- One file inside the snapshot. -/
structure EntryMeta where
  /-- Path relative to the snapshot's logical root. -/
  name : String
  len : Nat
  crc32 : UInt32
deriving DecidableEq, Repr

/-- Resource limits as they were at checkpoint time. -/
structure CgroupSnapshot where
  memoryMax : String
  memoryPeak : Nat
  cpuMax : String
  pidsMax : String
  cpuUsageUsec : Nat
deriving DecidableEq, Repr

/-- Identity of each namespace the container occupied, by inode number. -/
structure NamespaceSnapshot where
  pid : Option Nat
  mnt : Option Nat
  net : Option Nat
  uts : Option Nat
  ipc : Option Nat
deriving DecidableEq, Repr

/-- One line of the container's mount table. -/
structure MountEntry where
  mountPoint : String
  fsType : String
  source : String
  options : String
deriving DecidableEq, Repr

/-- One open descriptor, with the target it resolved to. -/
structure FdEntry where
  fd : Int
  target : String
deriving DecidableEq, Repr

/-- Everything about the checkpoint that is not raw image bytes. -/
structure Manifest where
  formatVersion : Nat
  producer : String
  engine : String
  engineVersion : String
  createdAt : String
  sourceHost : String
  sourceArch : String
  sourceKernel : String
  containerId : String
  config : ContainerConfig
  lifecycle : ContainerState
  cgroup : CgroupSnapshot
  namespaces : NamespaceSnapshot
  mounts : List MountEntry
  openFds : List FdEntry
  checkpointPid : Int
  entries : List EntryMeta
deriving DecidableEq, Repr

end Mincontainer
