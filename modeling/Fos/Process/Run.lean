import Fos.Kernel.SystemProperties
import Fos.UserHeap.Malloc

/-! The life of a program: its calls of `malloc` and `free`, with the system calls they end in, and what
else the kernel does in the meantime. -/

set_option autoImplicit false

namespace Fos.Process

open Foundation Kernel UserHeap

/-- The heap of a program and the kernel it runs on. -/
structure World where
  kernel : KernelState
  heap : Session

inductive Action where
  /-- The program calls `malloc` or `free`. -/
  | request (request : Request)
  /-- The kernel is entered for something else. -/
  | event (event : Event)

/-- What the library computes before it enters the kernel. -/
def libraryCall (heap : Session) : Request → Except Fault Outcome
  | .malloc size => malloc size heap.spaces
  | .free pointer => free pointer heap.spaces

/-- `sys_allocateMem` and `sys_freeMem`. -/
def eventOf : SystemCall → Event
  | .allocateMem address size => .allocateMem address size
  | .freeMem address size => .freeMem address size

/-- A library call that finds no space does not enter the kernel. -/
def enterKernel (kernel : KernelState) : Option SystemCall → Option KernelState
  | none => some kernel
  | some systemCall => Kernel.exec kernel (eventOf systemCall)

/-- The program gets its memory from the library only. -/
def IsMemoryCall : Event → Prop
  | .allocateMem _ _ | .freeMem _ _ => True
  | _ => False

instance : DecidablePred IsMemoryCall
  | .allocateMem _ _ | .freeMem _ _ => isTrue trivial
  | .create _ _ _ | .start _ | .schedule | .fault _ _ | .access _ _ | .allocatePage _ _ | .exit | .kill _ => isFalse id

/-- The program goes on as long as its environment has not been terminated. -/
def survive (slot : Nat) (heap : Session) (kernel : KernelState) : Option World :=
  if slot ∈ kernel.runnable then some ⟨kernel, heap⟩ else none

def exec (slot : Nat) (world : World) : Action → Option World
  | .request request =>
      if world.kernel.curenv = some slot then
        match libraryCall world.heap request, world.heap.exec request with
        | .ok outcome, some heap => (enterKernel world.kernel outcome.systemCall).bind (survive slot heap)
        | _, _ => none
      else none
  | .event event =>
      if world.kernel.curenv = some slot ∧ IsMemoryCall event then none
      else (Kernel.exec world.kernel event).bind (survive slot world.heap)

/-- `env_create` has just made the environment. -/
structure Begins (layout : BootLayout) (program : UserProgram) (slot : Nat) (world : World) : Prop where
  created : ∃ before pageWSSize secondListSize,
    (kernel layout).Reaches Contained before ∧
      Contained before (.create program pageWSSize secondListSize) ∧ slot ∈ before.envFreeList ∧
      Kernel.exec before (.create program pageWSSize secondListSize) = some world.kernel
  runnable : slot ∈ world.kernel.runnable
  heap : world.heap = Session.initial

/-- The runs of a program in the environment of a slot. -/
def processes (layout : BootLayout) (program : UserProgram) (slot : Nat) : System World Action where
  start := Begins layout program slot
  exec := exec slot

/-- Requests of sizes that do not wrap, and contained events. -/
def Proper (world : World) : Action → Prop
  | .request request => request.Sized
  | .event event => Contained world.kernel event

end Fos.Process
