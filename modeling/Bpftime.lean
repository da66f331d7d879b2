import Bpftime.LruHashMap.Refinement
import Bpftime.Jit.DivisionSafety
import Bpftime.Jit.LocalCall
import Bpftime.Jit.Programs
import Bpftime.Jit.Targets
import Bpftime.Vm.Lifecycle
import Bpftime.Shm.Duplicates
import Bpftime.PerfEvent.Growth
import Bpftime.Shm.Release
import Bpftime.Shm.Slots
import Bpftime.Shm.RoundTrip
import Bpftime.Ubpf.Lddw
import Bpftime.Ubpf.Calls
import Bpftime.QueueStack.Refinement
import Bpftime.BloomFilter.Membership
import Bpftime.SyscallTrace.Dispatch
import Bpftime.SyscallServer.Passthrough
import Bpftime.SyscallServer.KernelNaming
import Bpftime.Cuda.Progress
import Bpftime.Cuda.Exclusion
import Bpftime.GpuRingbuf.Draining
import Bpftime.Ringbuf.Positions
import Bpftime.Ringbuf.Helpers
import Bpftime.PerfEvent.Positions
import Bpftime.Shm.Clearing
import Bpftime.Frida.Bookkeeping
import Bpftime.Verifier.Helpers
import Bpftime.Verifier.Maps
import Bpftime.Frida.Override
import Bpftime.KernelUser.ArrayMap
import Bpftime.KernelUser.Transporter
import Bpftime.Daemon.Mirroring
import Bpftime.Ptx.EntryProbe
import Bpftime.StackTrace.Traces
import Bpftime.PerCpuHash.Capacity
import Bpftime.Arrays.Refinement
import Bpftime.HashMap.Iteration
import Bpftime.LpmTrie.Iteration
import Bpftime.Helpers.Packets
import Bpftime.Helpers.Outputs
import Bpftime.Epoll.Wait
import Bpftime.SyscallServer.MockedFiles
import Bpftime.Daemon.Descriptors
