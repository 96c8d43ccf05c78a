import ClamavWin32.Semantics.ByteMemory

/-!
# PE realignment

`align_pe` of `src/common/scanmem.c`, in the memory of the whole process: the buffer that
`dump_pe` has filled from another process is at `buffer`, and the pointers that the code
computes may leave it. `Protection` is what `IsBadReadPtr` and `IsBadWritePtr` answer from;
they access no byte on behalf of the code.

`FILLBYTES` is written out at its three places: the check of the pointer, then the read.
-/

namespace ClamavWin32
namespace ScanMem

open ByteMemory (offset span)

/-! ## The process -/

inductive Architecture where
  | x86
  | x64
  deriving DecidableEq

def Architecture.ptrBits : Architecture → ℕ
  | .x86 => 32
  | .x64 => 64

abbrev Ptr (arch : Architecture) := BitVec arch.ptrBits

abbrev Memory (arch : Architecture) := ByteMemory arch.ptrBits

/-- The protection of each byte of the address space. -/
structure Protection (arch : Architecture) where
  readable : Ptr arch → Bool
  writable : Ptr arch → Bool

/-- `IsBadReadPtr` -/
def Protection.isBadReadPtr {arch : Architecture} (prot : Protection arch) (lp : Ptr arch)
    (ucb : ℕ) : Bool :=
  !(span lp ucb).all prot.readable

/-- `IsBadWritePtr` -/
def Protection.isBadWritePtr {arch : Architecture} (prot : Protection arch) (lp : Ptr arch)
    (ucb : ℕ) : Bool :=
  !(span lp ucb).all prot.writable

/-! ## The format -/

def IMAGE_DOS_SIGNATURE : ℕ := 0x5A4D

def IMAGE_NT_SIGNATURE : ℕ := 0x4550

def sizeofImageFileHeader : ℕ := 20

def sizeofImageOptionalHeader32 : ℕ := 224

def sizeofImageSectionHeader : ℕ := 40

/-- `offsetof (IMAGE_FILE_HEADER, NumberOfSections)` -/
def numberOfSectionsOffset : ℕ := 2

/-- `offsetof (IMAGE_SECTION_HEADER, Misc.VirtualSize)` -/
def virtualSizeOffset : ℕ := 8

/-- `offsetof (IMAGE_SECTION_HEADER, VirtualAddress)` -/
def virtualAddressOffset : ℕ := 12

/-- `offsetof (IMAGE_SECTION_HEADER, SizeOfRawData)` -/
def sizeOfRawDataOffset : ℕ := 16

/-- `offsetof (IMAGE_SECTION_HEADER, PointerToRawData)` -/
def pointerToRawDataOffset : ℕ := 20

/-! ## The code -/

/-- The two assignments to a section header. -/
def alignSection {arch : Architecture} (sechdr : Ptr arch) (m : Memory arch) : Memory arch :=
  let m := m.read (offset sechdr virtualAddressOffset) 4
  let virtualAddress := m.value (offset sechdr virtualAddressOffset) 4
  let m := m.write (offset sechdr pointerToRawDataOffset) 4 virtualAddress
  let m := m.read (offset sechdr virtualSizeOffset) 4
  let virtualSize := m.value (offset sechdr virtualSizeOffset) 4
  m.write (offset sechdr sizeOfRawDataOffset) 4 virtualSize

/-- The loop over the section headers, which reads `NumberOfSections` again each time. -/
def alignSections {arch : Architecture} (prot : Protection arch) (pehdr seek : Ptr arch)
    (i : ℕ) (m : Memory arch) : ℤ × Memory arch :=
  let m := m.read (offset pehdr numberOfSectionsOffset) 2
  let numberOfSections := m.value (offset pehdr numberOfSectionsOffset) 2
  if i < numberOfSections then
    if prot.isBadWritePtr seek sizeofImageSectionHeader then (0, m)
    else
      alignSections prot pehdr (offset seek sizeofImageSectionHeader) (i + 1)
        (alignSection seek m)
  else (1, m)
termination_by 65536 - i
decreasing_by
  have hlt := m.value_lt (offset pehdr numberOfSectionsOffset) 2
  omega

/-- `align_pe`: what it returns and the memory after it. -/
def alignPe {arch : Architecture} (prot : Protection arch) (buffer _size : Ptr arch)
    (m : Memory arch) : ℤ × Memory arch :=
  if prot.isBadReadPtr buffer 2 then (1, m)
  else
    let m := m.read buffer 2
    let e_mz := m.value buffer 2
    if e_mz ≠ IMAGE_DOS_SIGNATURE then (0, m)
    else
      let seek := offset buffer 0x3C
      if prot.isBadReadPtr seek 4 then (1, m)
      else
        let m := m.read seek 4
        let e_lfanew := m.value seek 4
        if e_lfanew = 0 then (0, m)
        else
          let seek := offset buffer e_lfanew
          if prot.isBadReadPtr seek 4 then (1, m)
          else
            let m := m.read seek 4
            let e_magic := m.value seek 4
            if e_magic ≠ IMAGE_NT_SIGNATURE then (0, m)
            else
              let pehdr := offset seek 4
              if prot.isBadReadPtr pehdr sizeofImageFileHeader then (0, m)
              else
                let opthdr := offset pehdr sizeofImageFileHeader
                if prot.isBadReadPtr opthdr sizeofImageOptionalHeader32 then (0, m)
                else
                  let seek := offset opthdr sizeofImageOptionalHeader32
                  let m := m.read (offset pehdr numberOfSectionsOffset) 2
                  let numberOfSections := m.value (offset pehdr numberOfSectionsOffset) 2
                  if numberOfSections < 1 ∨ 32 < numberOfSections then (0, m)
                  else alignSections prot pehdr seek 0 m

end ScanMem
end ClamavWin32
