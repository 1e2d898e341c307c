import Virt86.BitSlices

/-!
# The specification of a virtual machine

What the platforms take from `VMSpecifications` when they set up a machine.
-/

namespace Virt86

structure CPUIDResult where
  function : U32
  eax : U32
  ebx : U32
  ecx : U32
  edx : U32
  deriving DecidableEq, Repr

def CPUIDResult.registers (r : CPUIDResult) : U32 × U32 × U32 × U32 := (r.eax, r.ebx, r.ecx, r.edx)

/-- A set of values of the enumeration, as its bits. -/
abbrev ExtendedVMExit := U32

namespace ExtendedVMExit

def CPUID : ExtendedVMExit := 1 <<< 0
def MSRAccess : ExtendedVMExit := 1 <<< 1
def Exception : ExtendedVMExit := 1 <<< 2

end ExtendedVMExit

structure VMSpecifications where
  numProcessors : U64
  extendedVMExits : ExtendedVMExit
  vmExitCPUIDFunctions : List U32
  vmExitExceptions : U64
  CPUIDResults : List CPUIDResult
  deriving DecidableEq, Repr

end Virt86
