import ClusterPulse.Agent.Scheduler

/-!
# The metric collectors

The four collectors of an Agent.  What psutil reads they take by shape; a reading may raise, and
`AgentScheduler.collect` isolates that.
-/

namespace ClusterPulse

/-! ## What psutil reads -/

/-- `psutil.virtual_memory()`. -/
structure VirtualMemory where
  percent : Double
  used : ℕ
  available : ℕ
deriving DecidableEq, Repr

/-- `psutil.disk_usage(path)`. -/
structure DiskUsage where
  percent : Double
  used : ℕ
  free : ℕ
deriving DecidableEq, Repr

/-- `psutil.net_io_counters()`. -/
structure NetIoCounters where
  bytesSent : ℕ
  bytesRecv : ℕ
deriving DecidableEq, Repr

/-- The functions of psutil that the collectors call. -/
structure Psutil (Op : Type) (Res : Op → Type) where
  cpuPercent : Prog Op Res AgentError Double
  virtualMemory : Prog Op Res AgentError VirtualMemory
  diskUsage : String → Prog Op Res AgentError DiskUsage
  /-- There are none on a node without a network interface. -/
  netIoCounters : Prog Op Res AgentError (Option NetIoCounters)

/-! ## The collectors -/

/-- `float(n)`, which raises only where the result overflows: no 64-bit counter of `psutil` does. -/
def floatOfNat (n : ℕ) : Double := .ofRat n

/-- `DEFAULT_DISK_MOUNT_PATH`. -/
def defaultDiskMountPath : String := "/"

section Samples

/-- Current CPU usage as a single percentage sample. -/
def cpuSamples (usagePercent : Double) : List MetricSample :=
  [⟨.cpuUsagePercent, usagePercent, "percent", []⟩]

def memorySamples (vm : VirtualMemory) : List MetricSample :=
  [⟨.memoryUsagePercent, vm.percent, "percent", []⟩,
    ⟨.memoryUsedBytes, floatOfNat vm.used, "bytes", []⟩,
    ⟨.memoryAvailableBytes, floatOfNat vm.available, "bytes", []⟩]

def diskSamples (mountPath : String) (usage : DiskUsage) : List MetricSample :=
  [⟨.diskUsagePercent, usage.percent, "percent", [("mount_point", mountPath)]⟩,
    ⟨.diskUsedBytes, floatOfNat usage.used, "bytes", [("mount_point", mountPath)]⟩,
    ⟨.diskFreeBytes, floatOfNat usage.free, "bytes", [("mount_point", mountPath)]⟩]

def networkSamples (counters : NetIoCounters) : List MetricSample :=
  [⟨.networkBytesSent, floatOfNat counters.bytesSent, "bytes", []⟩,
    ⟨.networkBytesRecv, floatOfNat counters.bytesRecv, "bytes", []⟩]

end Samples

namespace Psutil

variable {Op : Type} {Res : Op → Type} (psutil : Psutil Op Res)

/-- The first reading of `cpu_percent` is meaningless, so the constructor makes it. -/
def cpuCollector : Prog Op Res AgentError (MetricCollector Op Res) := do
  let _ ← psutil.cpuPercent
  return ⟨"CpuCollector", cpuSamples <$> psutil.cpuPercent⟩

def memoryCollector : MetricCollector Op Res :=
  ⟨"MemoryCollector", memorySamples <$> psutil.virtualMemory⟩

def diskCollector (mountPath : String) : MetricCollector Op Res :=
  ⟨"DiskCollector", diskSamples mountPath <$> psutil.diskUsage mountPath⟩

def networkCollector : MetricCollector Op Res :=
  ⟨"NetworkCollector", do
    match ← psutil.netIoCounters with
    | some counters => return networkSamples counters
    | none => Prog.throw (.exception "'NoneType' object has no attribute 'bytes_sent'")⟩

end Psutil

end ClusterPulse
