import Fos.Kernel.Environment

/-! The program headers of an ELF image, and the macro `PROGRAM_SEGMENT_FOREACH` that goes over them:
`inc/elf.h` and `kern/user_environment.c`. -/

set_option autoImplicit false

namespace Fos.Kernel

abbrev elfMagic : Nat := 0x464C457F
abbrev elfProgLoad : Nat := 1

/-- `struct Proghdr`, as far as it is read. -/
structure Proghdr where
  pType : Nat
  pOffset : Nat
  pVa : Nat
  pFilesz : Nat
  pMemsz : Nat

/-- An image in memory: where it starts, and the bytes the kernel reads there and behind it. -/
structure ElfImage where
  ptrProgramStart : Nat
  byte : Nat → UInt8

namespace ElfImage

variable (image : ElfImage)

def uint16 (address : Nat) : Nat :=
  (image.byte (address % wordSize)).toNat + 256 * (image.byte ((address + 1) % wordSize)).toNat

def uint32 (address : Nat) : Nat := image.uint16 address + 65536 * image.uint16 (address + 2)

/-! The fields of `struct Elf`. -/

def eMagic : Nat := image.uint32 image.ptrProgramStart
def ePhoff : Nat := image.uint32 (image.ptrProgramStart + 28)
def ePhnum : Nat := image.uint16 (image.ptrProgramStart + 44)

/-- `ph[index]`, also for an index beyond the table. -/
def ph (index : Nat) : Proghdr :=
  let address := image.ptrProgramStart + image.ePhoff + 32 * index
  { pType := image.uint32 address
    pOffset := image.uint32 (address + 4)
    pVa := image.uint32 (address + 8)
    pFilesz := image.uint32 (address + 16)
    pMemsz := image.uint32 (address + 20) }

/-- The assignments to the fields of a segment. -/
def segmentOf (header : Proghdr) : ProgramSegment where
  ptrStart := (image.ptrProgramStart + header.pOffset) % wordSize
  sizeInFile := header.pFilesz
  sizeInMemory := header.pMemsz
  virtualAddress := header.pVa

end ElfImage

/-- A run of the macro: the indices of the headers it has read, and the state its body works on. -/
structure Enumerating (Inner : Type) where
  reads : List Nat
  inner : Inner

abbrev EnumerateM (Inner : Type) := EStateM Stop (Enumerating Inner)

variable {Inner : Type}

def readHeader (image : ElfImage) (index : Nat) : EnumerateM Inner Proghdr := do
  modify fun state => { state with reads := state.reads ++ [index] }
  return image.ph index

def onInner {Result : Type} (program : EStateM Stop Inner Result) : EnumerateM Inner Result := fun state =>
  match program state.inner with
  | .ok result inner => .ok result { state with inner := inner }
  | .error stop inner => .error stop { state with inner := inner }

/-- `struct ProgramSegment`, with the counter of the macro. -/
structure SegmentCursor extends ProgramSegment where
  segmentId : Nat

/-- The `while` loop of both functions. The type is tested before the bound. -/
def skipHeaders (image : ElfImage) (segmentId : Nat) : EnumerateM Inner Nat := do
  let header ← readHeader image segmentId
  if more : header.pType ≠ elfProgLoad ∧ segmentId < image.ePhnum then
    skipHeaders image (segmentId + 1)
  else
    return segmentId
termination_by image.ePhnum - segmentId

def checkMagic (image : ElfImage) : EnumerateM Inner Unit :=
  if image.eMagic ≠ elfMagic then throw (.panic "Matafa2nash 3ala Keda") else pure ()

/-- `PROGRAM_SEGMENT_NEXT`. NULL is `none`. -/
def programSegmentNext (image : ElfImage) (seg : SegmentCursor) : EnumerateM Inner (Option SegmentCursor) := do
  checkMagic image
  let index ← skipHeaders image (seg.segmentId + 1)
  if index < image.ePhnum then
    let header ← readHeader image index
    return some { image.segmentOf header with segmentId := index }
  else
    return none

/-- `PROGRAM_SEGMENT_FIRST`. `seg` is what the local variable holds at first. -/
def programSegmentFirst (image : ElfImage) (seg : SegmentCursor) : EnumerateM Inner SegmentCursor := do
  checkMagic image
  let index ← skipHeaders image 0
  if index < image.ePhnum then
    let header ← readHeader image index
    return { image.segmentOf header with segmentId := index }
  else
    return { seg with segmentId := wordSize - 1 }

/-- The `for` loop of the macro. It has at most as many rounds as there are headers. -/
def loopSegments (image : ElfImage) (body : ProgramSegment → EStateM Stop Inner Unit) :
    Nat → Option SegmentCursor → EnumerateM Inner Unit
  | _, none => pure ()
  | 0, some _ => throw (.undefined "PROGRAM_SEGMENT_FOREACH does not end")
  | rounds + 1, some seg => do
      onInner (body seg.toProgramSegment)
      let next ← programSegmentNext image seg
      loopSegments image body rounds next

/-- `PROGRAM_SEGMENT_FOREACH`, with what its local `tmp` holds at first. -/
def programSegmentForeach (image : ElfImage) (tmp : SegmentCursor) (body : ProgramSegment → EStateM Stop Inner Unit) :
    EnumerateM Inner Unit := do
  let first ← programSegmentFirst image tmp
  loopSegments image body image.ePhnum (if first.segmentId = wordSize - 1 then none else some first)

end Fos.Kernel
