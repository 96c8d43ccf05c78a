import ClamavWin32.Win32

/-!
# The processors of the system

`GetLogicalProcessorInformationEx_winxp` of `src/include/llvm-winxp.h`: the records of the
processors that have the relationship asked for, made out of the table of an older function.

* `requiredSize`: the first pass, which adds up their sizes;
* `fillEntries`: the second pass, which stores them one behind the other;
* `getLogicalProcessorInformationEx_winxp`: what the function returns, and what it stores.
-/

namespace ClamavWin32
namespace ProcessorInformation

def ERROR_OUTOFMEMORY : ErrorCode := 14

def ERROR_NOT_SUPPORTED : ErrorCode := 50

def ERROR_INSUFFICIENT_BUFFER : ErrorCode := 122

/-- `LOGICAL_PROCESSOR_RELATIONSHIP` -/
inductive Relationship where
  | RelationProcessorCore
  | RelationNumaNode
  | RelationCache
  | RelationProcessorPackage
  | RelationGroup
  | RelationAll
  deriving DecidableEq, Repr

/-- The architecture that the code is compiled for. -/
inductive Arch where
  | x86
  | x64
  deriving DecidableEq, Repr

/-- `sizeof (SYSTEM_LOGICAL_PROCESSOR_INFORMATION_EX)` -/
def Arch.sizeofEx : Arch → UInt32
  | .x86 => 76
  | .x64 => 80

/-- What is used of a `SYSTEM_LOGICAL_PROCESSOR_INFORMATION`: the first four bytes of its union
are `NumaNode.NodeNumber`, and the first of these is `ProcessorCore.Flags`. -/
structure LegacyInfo where
  Relationship : Relationship
  unionBits : UInt32
  deriving DecidableEq, Repr

/-- The part of the union that is stored. -/
inductive Payload where
  | ProcessorFlags (flags : UInt8)
  | NumaNodeNumber (number : UInt32)
  deriving DecidableEq, Repr

/-- A `SYSTEM_LOGICAL_PROCESSOR_INFORMATION_EX` as it is filled in, and where in the buffer. -/
structure Stored where
  offset : ℕ
  Relationship : Relationship
  Size : UInt32
  payload : Option Payload
  deriving DecidableEq, Repr

/-- The first byte of the buffer behind what is written of a record: two fields of four bytes,
and the part of the union. -/
def Stored.last (w : Stored) : ℕ :=
  match w.payload with
  | none => w.offset + 8
  | some (.ProcessorFlags _) => w.offset + 9
  | some (.NumaNodeNumber _) => w.offset + 12

/-- What the system answers. -/
structure Environment where
  /-- The last error of `GetLogicalProcessorInformation` without a buffer, `none` if it
  succeeds. -/
  querySize : Option ErrorCode
  malloc : Bool
  /-- The table, `none` if `GetLogicalProcessorInformation` fails. -/
  legacyInfo : Option (List LegacyInfo)

/-- The first pass. -/
def requiredSize (arch : Arch) (relationship : Relationship) (table : List LegacyInfo) :
    UInt32 :=
  table.foldl
    (fun requiredSize info =>
      if info.Relationship = relationship then requiredSize + arch.sizeofEx else requiredSize)
    0

/-- A record of the second pass. -/
def storedAt (arch : Arch) (relationship : Relationship) (pCurrent : ℕ) (info : LegacyInfo) :
    Stored where
  offset := pCurrent
  Relationship := info.Relationship
  Size := arch.sizeofEx
  payload :=
    match relationship with
    | .RelationProcessorCore => some (.ProcessorFlags info.unionBits.toUInt8)
    | .RelationNumaNode => some (.NumaNodeNumber info.unionBits)
    | _ => none

/-- The second pass. -/
def fillEntries (arch : Arch) (relationship : Relationship) :
    ℕ → List LegacyInfo → List Stored
  | _, [] => []
  | pCurrent, info :: table =>
    if info.Relationship = relationship then
      storedAt arch relationship pCurrent info ::
        fillEntries arch relationship (pCurrent + arch.sizeofEx.toNat) table
    else fillEntries arch relationship pCurrent table

/-- What the function leaves. -/
structure Result where
  returned : Bool
  /-- The error that `SetLastError` is called with. -/
  lastError : Option ErrorCode
  /-- `*ReturnedLength` -/
  returnedLength : UInt32
  stored : List Stored
  deriving DecidableEq, Repr

/-- `GetLogicalProcessorInformationEx_winxp`, where `ReturnedLength` is not `NULL`. -/
def getLogicalProcessorInformationEx_winxp (arch : Arch) (env : Environment)
    (relationship : Relationship) (buffer : Bool) (returnedLength : UInt32) : Result :=
  if relationship ≠ .RelationProcessorCore ∧ relationship ≠ .RelationNumaNode then
    ⟨false, some ERROR_NOT_SUPPORTED, returnedLength, []⟩
  else if env.querySize ≠ none ∧ env.querySize ≠ some ERROR_INSUFFICIENT_BUFFER then
    ⟨false, none, returnedLength, []⟩
  else if !env.malloc then ⟨false, some ERROR_OUTOFMEMORY, returnedLength, []⟩
  else
    match env.legacyInfo with
    | none => ⟨false, none, returnedLength, []⟩
    | some table =>
      let requiredSize := requiredSize arch relationship table
      -- from here on `*ReturnedLength` is no longer what the caller has passed
      let returnedLength := requiredSize
      if !buffer then ⟨true, none, returnedLength, []⟩
      else if returnedLength < requiredSize then
        ⟨false, some ERROR_INSUFFICIENT_BUFFER, returnedLength, []⟩
      else ⟨true, none, returnedLength, fillEntries arch relationship 0 table⟩

end ProcessorInformation
end ClamavWin32
