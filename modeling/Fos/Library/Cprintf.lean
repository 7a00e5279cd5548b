import Fos.Library.Printf

/-! `cprintf` of an environment (`lib/printf.c`), down to the kernel's `sys_cputs` (`kern/syscall.c`) and `cprintf`
(`kern/printf.c`). -/

set_option autoImplicit false

namespace Fos.Library

/-- Where the kernel keeps its formats, and what it knows of the environment that runs. -/
structure KernelTexts where
  progNameFormat : Nat
  stringFormat : Nat
  progName : BitVec 32
  envId : BitVec 32

/-- The memory that the kernel and the environment see, and what was handed to `cputchar`. -/
structure Screen where
  memory : Bytes
  console : Text

namespace Screen

/-- The kernel's `cprintf`. It returns 0: `*cnt++` moves a pointer. -/
def kernelCprintf (screen : Screen) (limit fmt : Nat) (ap : VaList) : Printed Screen := do
  let text ← vprintfmt screen.memory limit limit fmt ap
  return { screen with console := screen.console ++ text }

/-- `sys_cputs`, behind the system call. -/
def sysCputs (screen : Screen) (kernel : KernelTexts) (limit : Nat) (s len : BitVec 32) (printProgName : Bool) :
    Printed Screen := do
  let screen ← if printProgName then screen.kernelCprintf limit kernel.progNameFormat [kernel.progName, kernel.envId]
    else pure screen
  screen.kernelCprintf limit kernel.stringFormat [len, s]

end Screen

structure PrintBuf where
  screen : Screen
  idx : Nat
  cnt : Int

/-- What the calls of `putch` share: the address of `b.buf`, and `printProgName`. -/
structure Printing where
  kernel : KernelTexts
  limit : Nat
  buf : BitVec 32
  printProgName : Bool

namespace Printing

variable (printing : Printing)

def cputs (screen : Screen) (idx : Nat) : Printed Screen :=
  screen.sysCputs printing.kernel printing.limit printing.buf idx printing.printProgName

def putch (b : PrintBuf) (ch : BitVec 32) : Printed PrintBuf := do
  let memory := Function.update b.screen.memory (printing.buf.toNat + b.idx) (ch.setWidth 8)
  let screen := { b.screen with memory }
  let idx := b.idx + 1
  let cnt := long (b.cnt + 1)
  if idx = 256 - 1 then
    let screen ← printing.cputs screen idx
    return ⟨screen, 0, cnt⟩
  else return ⟨screen, idx, cnt⟩

/-- `vcprintf`: what it returns, and what is on the screen. The buffer is on the stack, where nothing that is printed
lies. -/
def vcprintf (screen : Screen) (fmt : Nat) (ap : VaList) : Printed (Int × Screen) := do
  let text ← vprintfmt screen.memory printing.limit printing.limit fmt ap
  let b ← text.foldlM printing.putch ⟨screen, 0, 0⟩
  let screen ← printing.cputs b.screen b.idx
  return (b.cnt, screen)

end Printing

/-- `cprintf`, which has the name of the environment printed. -/
def cprintf (kernel : KernelTexts) (limit : Nat) (buf : BitVec 32) (screen : Screen) (fmt : Nat) (ap : VaList) :
    Printed (Int × Screen) :=
  Printing.vcprintf ⟨kernel, limit, buf, true⟩ screen fmt ap

/-- `atomic_cprintf`, for which `printProgName` is 0. -/
def atomicCprintf (kernel : KernelTexts) (limit : Nat) (buf : BitVec 32) (screen : Screen) (fmt : Nat) (ap : VaList) :
    Printed (Int × Screen) :=
  Printing.vcprintf ⟨kernel, limit, buf, false⟩ screen fmt ap

end Fos.Library
