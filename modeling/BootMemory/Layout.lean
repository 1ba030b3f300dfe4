/-!
# The kernel's address space

The addresses at which the parts of the 64-bit address space meet.  Everything
from `directMapBase` on belongs to the kernel: first the direct map, through
which each physical byte is reached at a fixed distance, then the kernel's own
text and data.
-/

namespace BootMemory.Layout

/-- The end of user space, after which kernel space begins. -/
def userSpaceEnd : UInt64 := 0xffff000000000000

/-- The base of the direct map that the kernel sets up itself. -/
def directMapBase : UInt64 := 0xffff888000000000

/-- The address at which the kernel executes. -/
def kernelBase : UInt64 := 0xffffffff80000000

theorem userSpaceEnd_le_directMapBase : userSpaceEnd ≤ directMapBase := by decide

theorem directMapBase_lt_kernelBase : directMapBase < kernelBase := by decide

end BootMemory.Layout
