import Fos.Foundation.Runs
import Fos.Kernel.PageFile
import Fos.Kernel.Places

/-! The page file as a store of pages by environment and page: its operations, in any order
and for any environments. -/

set_option autoImplicit false

namespace Fos.Kernel

/-- What the page file is asked for. A frame is where the content comes from. -/
inductive PageFileCall where
  | add (slot address : Nat) (dataSrc : Page)
  | update (slot address frame : Nat)
  | remove (slot address : Nat)
  | read (slot address : Nat)
  | free (slot : Nat)
  /-- The processor runs another environment. -/
  | switch (slot : Nat)

def PageFileCall.perform : PageFileCall → KernelM Int
  | .add slot address dataSrc => pfAddEnvPage slot address dataSrc
  | .update slot address frame => pfUpdateEnvPage slot address (some frame)
  | .remove slot address => do
      pfRemoveEnvPage slot address
      return 0
  | .read slot address => pfReadEnvPage slot address
  | .free slot => do
      pfFreeEnv slot
      return 0
  | .switch slot => do
      modify fun state => { state with
        curenv := some slot
        cr3 := (state.envs slot).envCr3 }
      return 0

/-- What was given for the pages of an environment, `none` where nothing is. -/
abbrev Given : Type := Nat → Nat → Option Page

def Given.set (given : Given) (slot page : Nat) (content : Option Page) : Given :=
  Function.update given slot (Function.update (given slot) page content)

/-- What is given after an operation that returned, by the state before it. -/
def PageFileCall.gives (state : KernelState) (given : Given) (result : Int) : PageFileCall → Given
  | .add slot address dataSrc =>
      if result = 0 then given.set slot (pageOf address) (some dataSrc) else given
  | .update slot address frame =>
      if result = 0 then given.set slot (pageOf address) (some (state.mem frame)) else given
  | .remove slot address => given.set slot (pageOf address) none
  | .free slot => Function.update given slot fun _ => none
  | .read _ _ => given
  | .switch _ => given

/-- The kernel, with what was given to the page file. -/
structure Filing where
  kernel : KernelState
  given : Given

/-- An operation of the page file. One that panics gives nothing. -/
def Filing.exec (filing : Filing) (call : PageFileCall) : Option Filing :=
  match call.perform filing.kernel with
  | .ok result next => some ⟨next, call.gives filing.kernel filing.given result⟩
  | .error (.panic _) next => some ⟨next, filing.given⟩
  | .error (.undefined _) _ => none

/-- The addresses are those of user pages. What is read goes to a page that is present in
the running environment. -/
def PageFileCall.Proper (state : KernelState) : PageFileCall → Prop
  | .add _ address _ => address < userTop
  | .update _ address frame => address < userTop ∧ frame < state.numberOfFrames
  | .remove _ address => address < userTop
  | .read slot address => address < userTop ∧ state.curenv = some slot ∧
      state.cr3 = (state.envs slot).envCr3 ∧ (state.envs slot).envPageDirectory ≠ 0 ∧
      (state.translate (state.envs slot).envPageDirectory address).isSome
  | .free _ => True
  | .switch _ => True

/-- What is stored for the pages of an environment is what was given for them. -/
def Filing.Faithful (filing : Filing) : Prop := ∀ slot page,
  match filing.given slot page with
  | none => filing.kernel.leaf .disk slot page = 0
  | some content => filing.kernel.leaf .disk slot page ≠ 0 ∧
      ∀ index < 1024, filing.kernel.diskPage (filing.kernel.leaf .disk slot page) index = content index

/-- A kernel for whose page file only that is known which is in it. -/
def Filing.found (state : KernelState) : Filing where
  kernel := state
  given := fun slot page =>
    if state.leaf .disk slot page = 0 then none else some (state.diskPage (state.leaf .disk slot page))

/-- The page file of a kernel, from any state in which it is known what was given. -/
def pageFile (layout : BootLayout) : Foundation.System Filing PageFileCall where
  start := fun filing => (∃ ram, Inv layout ram filing.kernel) ∧ filing.Faithful
  exec := Filing.exec

end Fos.Kernel
