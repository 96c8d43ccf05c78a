import ClamavWin32.ScanMem.AlignPe

/-!
# When the PE realignment stays inside its buffer

* `mem_accesses_alignPe`: the bytes that `align_pe` reads and writes are those of the
  headers that it reaches, one after the other.
* `staysInside_iff`: they lie in the buffer if and only if each header that is reached ends
  below `size`. The code checks nothing of the sort: it never reads its parameter `size`.
-/

namespace ClamavWin32
namespace ScanMem

open ByteMemory (offset offset_offset span mem_span_add notMem_span_of_mem_span
  forall_mem_span_inside)

variable {arch : Architecture}

/-! ## The headers -/

section Headers

variable (prot : Protection arch) (m : Memory arch) (buffer : Ptr arch)

def eLfanew : ℕ := m.value (offset buffer 0x3C) 4

/-- `NumberOfSections`, which follows the signature and `Machine`. -/
def numberOfSections : ℕ := m.value (offset buffer (eLfanew m buffer + 6)) 2

/-- The offset of a section header, after the signature, the file header and an optional
header of 32 bits. -/
def sectionOffset (k : ℕ) : ℕ := eLfanew m buffer + 248 + 40 * k

/-- `e_mz` is read. -/
def ReadsDosHeader : Prop := prot.isBadReadPtr buffer 2 = false

/-- `e_lfanew` is read. -/
def ReadsPeOffset : Prop :=
  ReadsDosHeader prot buffer ∧ m.value buffer 2 = IMAGE_DOS_SIGNATURE ∧
    prot.isBadReadPtr (offset buffer 0x3C) 4 = false

/-- `e_magic` is read. -/
def ReadsSignature : Prop :=
  ReadsPeOffset prot m buffer ∧ eLfanew m buffer ≠ 0 ∧
    prot.isBadReadPtr (offset buffer (eLfanew m buffer)) 4 = false

/-- `NumberOfSections` is read. -/
def ReadsFileHeader : Prop :=
  ReadsSignature prot m buffer ∧
    m.value (offset buffer (eLfanew m buffer)) 4 = IMAGE_NT_SIGNATURE ∧
    prot.isBadReadPtr (offset buffer (eLfanew m buffer + 4)) sizeofImageFileHeader = false ∧
    prot.isBadReadPtr (offset buffer (eLfanew m buffer + 24)) sizeofImageOptionalHeader32 =
      false

/-- Section header `k` is rewritten. -/
def WritesSection (k : ℕ) : Prop :=
  ReadsFileHeader prot m buffer ∧ 1 ≤ numberOfSections m buffer ∧
    numberOfSections m buffer ≤ 32 ∧ k < numberOfSections m buffer ∧
    ∀ j ≤ k, prot.isBadWritePtr (offset buffer (sectionOffset m buffer j))
      sizeofImageSectionHeader = false

/-- The `n` bytes at an offset end below `size`; an offset beyond the address space wraps. -/
def Fits (size : Ptr arch) (x n : ℕ) : Prop := x % 2 ^ arch.ptrBits + n ≤ size.toNat

/-- Of each header that is reached, the bytes that the code uses fit. -/
structure HeadersFit (size : Ptr arch) : Prop where
  dosHeader : ReadsDosHeader prot buffer → Fits size 0 2
  peOffset : ReadsPeOffset prot m buffer → Fits size 0x3C 4
  signature : ReadsSignature prot m buffer → Fits size (eLfanew m buffer) 4
  fileHeader : ReadsFileHeader prot m buffer → Fits size (eLfanew m buffer + 6) 2
  /-- From `VirtualSize` to `PointerToRawData`. -/
  sectionHeader : ∀ k, WritesSection prot m buffer k →
    Fits size (sectionOffset m buffer k + 8) 16

/-- Every byte that `align_pe` reads or writes lies in `buffer[0, size)`. -/
def StaysInside (size : Ptr arch) : Prop :=
  ∀ a ∈ (alignPe prot buffer size { m with accesses := [] }).2.accesses,
    (a - buffer).toNat < size.toNat

end Headers

/-! ## One section header -/

section SectionHeader

variable {m : Memory arch} {sechdr a : Ptr arch}

/-- A section header is read and written from `VirtualSize` to `PointerToRawData`. -/
lemma mem_accesses_alignSection :
    a ∈ (alignSection sechdr m).accesses ↔ a ∈ m.accesses ∨ a ∈ span (offset sechdr 8) 16 := by
  have hfields : a ∈ span (offset sechdr 8) (4 + (4 + (4 + 4))) ↔
      a ∈ span (offset sechdr 8) 4 ∨ a ∈ span (offset sechdr 12) 4 ∨
        a ∈ span (offset sechdr 16) 4 ∨ a ∈ span (offset sechdr 20) 4 := by
    simp only [mem_span_add, offset_offset]
  simp only [alignSection, ByteMemory.accesses_write, ByteMemory.accesses_read,
    List.mem_append, virtualAddressOffset, pointerToRawDataOffset, virtualSizeOffset,
    sizeOfRawDataOffset]
  rw [show 16 = 4 + (4 + (4 + 4)) from rfl, hfields]
  grind

/-- Only `SizeOfRawData` and `PointerToRawData` change. -/
lemma bytes_alignSection (ha : a ∉ span (offset sechdr 16) 8) :
    (alignSection sechdr m).bytes a = m.bytes a := by
  rw [show 8 = 4 + 4 from rfl, mem_span_add, offset_offset, not_or] at ha
  have hsize : a ∉ span (offset sechdr sizeOfRawDataOffset) 4 := ha.1
  have hpointer : a ∉ span (offset sechdr pointerToRawDataOffset) 4 := ha.2
  rw [alignSection, ByteMemory.bytes_write_of_notMem hsize, ByteMemory.bytes_read,
    ByteMemory.bytes_write_of_notMem hpointer, ByteMemory.bytes_read]

end SectionHeader

lemma Architecture.le_ptrBits (arch : Architecture) : 32 ≤ arch.ptrBits := by
  cases arch <;> decide

/-- The rewriting of a section header does not change `NumberOfSections`. -/
lemma numberOfSections_alignSection {m : Memory arch} {pehdr : Ptr arch} {i : ℕ}
    (hi : i < 32) :
    (alignSection (offset pehdr (244 + 40 * i)) m).value (offset pehdr 2) 2 =
      m.value (offset pehdr 2) 2 := by
  have hspace : 2 ^ 32 ≤ 2 ^ arch.ptrBits := Nat.pow_le_pow_right (by omega) arch.le_ptrBits
  refine ByteMemory.value_congr fun a ha => bytes_alignSection ?_
  rw [offset_offset]
  exact notMem_span_of_mem_span (by omega) (by omega) ha

/-! ## The loop -/

section Loop

variable {prot : Protection arch} {pehdr a : Ptr arch} {n i k : ℕ}

/-- From section header `i` of `n` on, the loop gets to header `k` and may write it. -/
def Rewrites (prot : Protection arch) (pehdr : Ptr arch) (n i k : ℕ) : Prop :=
  i ≤ k ∧ k < n ∧ ∀ j, i ≤ j → j ≤ k →
    prot.isBadWritePtr (offset pehdr (244 + 40 * j)) sizeofImageSectionHeader = false

lemma not_rewrites_of_le (hin : n ≤ i) : ¬ Rewrites prot pehdr n i k := by
  rintro ⟨hik, hkn, _⟩
  omega

lemma rewrites_iff (hin : i < n) :
    Rewrites prot pehdr n i k ↔
      prot.isBadWritePtr (offset pehdr (244 + 40 * i)) sizeofImageSectionHeader = false ∧
        (k = i ∨ Rewrites prot pehdr n (i + 1) k) := by
  constructor
  · rintro ⟨hik, hkn, hwritable⟩
    refine ⟨hwritable i le_rfl hik, ?_⟩
    by_cases hki : k = i
    · exact Or.inl hki
    · exact Or.inr ⟨by omega, hkn, fun j hij hjk => hwritable j (by omega) hjk⟩
  · rintro ⟨hwritable, rfl | ⟨hik, hkn, hrest⟩⟩
    · refine ⟨le_rfl, hin, fun j hij hjk => ?_⟩
      rw [show j = k by omega]
      exact hwritable
    · refine ⟨by omega, hkn, fun j hij hjk => ?_⟩
      by_cases hji : j = i
      · rw [hji]
        exact hwritable
      · exact hrest j (by omega) hjk

/-- The loop reads `NumberOfSections` and rewrites the section headers up to the first one
that may not be written. -/
lemma mem_accesses_alignSections (hn : n ≤ 32) {m : Memory arch}
    (hnumber : m.value (offset pehdr 2) 2 = n) :
    a ∈ (alignSections prot pehdr (offset pehdr (244 + 40 * i)) i m).2.accesses ↔
      a ∈ m.accesses ∨ a ∈ span (offset pehdr 2) 2 ∨
        ∃ k, Rewrites prot pehdr n i k ∧ a ∈ span (offset pehdr (244 + 40 * k + 8)) 16 := by
  induction hd : n - i generalizing i m with
  | zero =>
    -- `i` is no longer below the number of sections
    have hend : ¬ i < n := by omega
    rw [alignSections]
    simp only [numberOfSectionsOffset, ByteMemory.value_read, hnumber, if_neg hend,
      ByteMemory.accesses_read, List.mem_append, not_rewrites_of_le (not_lt.mp hend),
      false_and, exists_false, or_false]
  | succ d ih =>
    have hin : i < n := by omega
    rw [alignSections]
    simp only [numberOfSectionsOffset, ByteMemory.value_read, hnumber, if_pos hin,
      rewrites_iff hin]
    by_cases hbad : prot.isBadWritePtr (offset pehdr (244 + 40 * i))
      sizeofImageSectionHeader = true
    · -- the header may not be written
      simp only [hbad, if_true, ByteMemory.accesses_read, List.mem_append, Bool.true_eq_false,
        false_and, exists_false, or_false]
    · -- it is rewritten, and the loop goes on to the next one
      have hnumber' : (alignSection (offset pehdr (244 + 40 * i))
          (m.read (offset pehdr 2) 2)).value (offset pehdr 2) 2 = n := by
        rw [numberOfSections_alignSection (by omega), ByteMemory.value_read, hnumber]
      have hnext : offset (offset pehdr (244 + 40 * i)) sizeofImageSectionHeader =
          offset pehdr (244 + 40 * (i + 1)) := by
        rw [offset_offset]
        rfl
      rw [if_neg hbad, hnext, ih hnumber' (by omega), mem_accesses_alignSection, offset_offset,
        ByteMemory.accesses_read, List.mem_append]
      rw [Bool.not_eq_true] at hbad
      simp only [hbad, true_and, or_and_right, exists_or, exists_eq_left]
      grind

end Loop

/-! ## The function -/

section Function

variable {prot : Protection arch} {m : Memory arch} {buffer size a : Ptr arch}

/-- With a file header that is read and a number of sections in range, the loop rewrites what
it gets to. -/
lemma writesSection_iff (hreads : ReadsFileHeader prot m buffer)
    (hpos : 1 ≤ numberOfSections m buffer) (hle : numberOfSections m buffer ≤ 32) {k : ℕ} :
    WritesSection prot m buffer k ↔
      Rewrites prot (offset buffer (eLfanew m buffer + 4)) (numberOfSections m buffer) 0 k := by
  have hoffset (j : ℕ) : offset (offset buffer (eLfanew m buffer + 4)) (244 + 40 * j) =
      offset buffer (sectionOffset m buffer j) := by
    rw [offset_offset, sectionOffset]
    congr 1
    omega
  simp only [WritesSection, Rewrites, hoffset, hreads, hpos, hle, true_and, Nat.zero_le,
    true_implies]

/-- Where the file header is not read, `align_pe` returns after the headers before it. -/
lemma mem_accesses_alignPe_of_not_readsFileHeader (hfile : ¬ ReadsFileHeader prot m buffer) :
    a ∈ (alignPe prot buffer size m).2.accesses ↔
      a ∈ m.accesses ∨
      (ReadsDosHeader prot buffer ∧ a ∈ span buffer 2) ∨
      (ReadsPeOffset prot m buffer ∧ a ∈ span (offset buffer 0x3C) 4) ∨
      (ReadsSignature prot m buffer ∧ a ∈ span (offset buffer (eLfanew m buffer)) 4) := by
  simp only [alignPe, ByteMemory.value_read]
  by_cases hdos : prot.isBadReadPtr buffer 2 = true
  · -- `e_mz` is not read
    simp [hdos, ReadsSignature, ReadsPeOffset, ReadsDosHeader]
  have hreadsDos : ReadsDosHeader prot buffer := by simpa [ReadsDosHeader] using hdos
  by_cases hmz : m.value buffer 2 = IMAGE_DOS_SIGNATURE
  swap
  · -- no DOS signature
    simp [hdos, hmz, hreadsDos, ReadsSignature, ReadsPeOffset]
  by_cases hoffset : prot.isBadReadPtr (offset buffer 0x3C) 4 = true
  · -- `e_lfanew` is not read
    simp [hdos, hmz, hoffset, hreadsDos, ReadsSignature, ReadsPeOffset]
  have hreadsOffset : ReadsPeOffset prot m buffer := by
    simpa [ReadsPeOffset, hreadsDos, hmz] using hoffset
  rw [if_neg hdos, if_neg (not_not.mpr hmz), if_neg hoffset]
  rw [show m.value (offset buffer 0x3C) 4 = eLfanew m buffer from rfl]
  by_cases hzero : eLfanew m buffer = 0
  · simp [hzero, hreadsDos, hreadsOffset, ReadsSignature]
  by_cases hsignature : prot.isBadReadPtr (offset buffer (eLfanew m buffer)) 4 = true
  · -- `e_magic` is not read
    simp [hzero, hsignature, hreadsDos, hreadsOffset, ReadsSignature]
  have hreadsSignature : ReadsSignature prot m buffer := by
    simpa [ReadsSignature, hreadsOffset, hzero] using hsignature
  rw [if_neg hzero, if_neg hsignature]
  by_cases hmagic : m.value (offset buffer (eLfanew m buffer)) 4 = IMAGE_NT_SIGNATURE
  swap
  · -- no PE signature
    simp [hmagic, hreadsDos, hreadsOffset, hreadsSignature]
  -- one of the file header and the optional header is not readable
  have hbad : prot.isBadReadPtr (offset buffer (eLfanew m buffer + 4)) sizeofImageFileHeader =
      true ∨ prot.isBadReadPtr (offset buffer (eLfanew m buffer + 24))
        sizeofImageOptionalHeader32 = true := by
    by_contra hgood
    rw [not_or, Bool.not_eq_true, Bool.not_eq_true] at hgood
    exact hfile ⟨hreadsSignature, hmagic, hgood⟩
  rw [if_neg (not_not.mpr hmagic), offset_offset, offset_offset,
    show eLfanew m buffer + 4 + sizeofImageFileHeader = eLfanew m buffer + 24 from rfl]
  rcases hbad with hbad | hbad
  · simp [hbad, hreadsDos, hreadsOffset, hreadsSignature]
  · simp [hbad, hreadsDos, hreadsOffset, hreadsSignature]

/-- Where the file header is read, `align_pe` goes on to the section table. -/
lemma alignPe_of_readsFileHeader (hreads : ReadsFileHeader prot m buffer) :
    alignPe prot buffer size m =
      let m' := (((m.read buffer 2).read (offset buffer 0x3C) 4).read
        (offset buffer (eLfanew m buffer)) 4).read (offset buffer (eLfanew m buffer + 6)) 2
      if numberOfSections m buffer < 1 ∨ 32 < numberOfSections m buffer then (0, m')
      else
        alignSections prot (offset buffer (eLfanew m buffer + 4))
          (offset (offset buffer (eLfanew m buffer + 4)) (244 + 40 * 0)) 0 m' := by
  obtain ⟨⟨⟨hdos, hmz, hoffset⟩, hzero, hsignature⟩, hmagic, hfile, hoptional⟩ := hreads
  rw [ReadsDosHeader] at hdos
  rw [eLfanew] at hzero hsignature hmagic hfile hoptional
  have hoptional' : prot.isBadReadPtr (offset buffer
      (m.value (offset buffer 0x3C) 4 + 4 + sizeofImageFileHeader)) sizeofImageOptionalHeader32 =
        false := hoptional
  simp only [alignPe, ByteMemory.value_read, hdos, hmz, hoffset, hzero, hsignature, hmagic,
    hfile, hoptional', offset_offset, Bool.false_eq_true, ne_eq, not_true_eq_false, if_false]
  rfl

/-- The number of sections is what it was before the headers were read. -/
lemma numberOfSections_read (m : Memory arch) (buffer : Ptr arch) :
    ((((m.read buffer 2).read (offset buffer 0x3C) 4).read (offset buffer (eLfanew m buffer))
        4).read (offset buffer (eLfanew m buffer + 6)) 2).value
      (offset (offset buffer (eLfanew m buffer + 4)) 2) 2 = numberOfSections m buffer := by
  simp only [ByteMemory.value_read, offset_offset]
  rfl

/-- The bytes that `align_pe` reads and writes are those of the headers that it reaches. -/
lemma mem_accesses_alignPe :
    a ∈ (alignPe prot buffer size m).2.accesses ↔
      a ∈ m.accesses ∨
      (ReadsDosHeader prot buffer ∧ a ∈ span buffer 2) ∨
      (ReadsPeOffset prot m buffer ∧ a ∈ span (offset buffer 0x3C) 4) ∨
      (ReadsSignature prot m buffer ∧ a ∈ span (offset buffer (eLfanew m buffer)) 4) ∨
      (ReadsFileHeader prot m buffer ∧ a ∈ span (offset buffer (eLfanew m buffer + 6)) 2) ∨
      ∃ k, WritesSection prot m buffer k ∧
        a ∈ span (offset buffer (sectionOffset m buffer k + 8)) 16 := by
  by_cases hreads : ReadsFileHeader prot m buffer
  swap
  · have hnone (k : ℕ) : ¬ WritesSection prot m buffer k := fun hwrites => hreads hwrites.1
    simp only [mem_accesses_alignPe_of_not_readsFileHeader hreads, hreads, hnone, false_and,
      exists_false, or_false]
  have hreadsSignature := hreads.1
  have hreadsOffset := hreadsSignature.1
  have hreadsDos := hreadsOffset.1
  rw [alignPe_of_readsFileHeader hreads]
  by_cases hcount : numberOfSections m buffer < 1 ∨ 32 < numberOfSections m buffer
  · -- a number of sections out of range
    have hnone (k : ℕ) : ¬ WritesSection prot m buffer k := by
      rintro ⟨_, hpos, hle, _⟩
      omega
    rw [if_pos hcount]
    simp [hreadsDos, hreadsOffset, hreadsSignature, hreads, hnone]
  · have hle : numberOfSections m buffer ≤ 32 := by omega
    have hheader (k : ℕ) : eLfanew m buffer + 4 + (244 + 40 * k + 8) =
        sectionOffset m buffer k + 8 := by
      rw [sectionOffset]
      omega
    have hnumber := numberOfSections_read m buffer
    rw [if_neg hcount, mem_accesses_alignSections hle hnumber]
    simp only [writesSection_iff hreads (by omega) hle, offset_offset, hheader, hreadsDos,
      hreadsOffset, hreadsSignature, hreads, ByteMemory.accesses_read, List.mem_append,
      true_and, or_assoc, or_self_left]

/-- Every byte lies in the buffer if and only if the bytes of every header that is reached
end below `size`. -/
theorem staysInside_iff (prot : Protection arch) (m : Memory arch) (buffer size : Ptr arch) :
    StaysInside prot m buffer size ↔ HeadersFit prot m buffer size := by
  have hfits {x n : ℕ} (hn : 0 < n) :
      (∀ a ∈ span (offset buffer x) n, (a - buffer).toNat < size.toNat) ↔ Fits size x n :=
    forall_mem_span_inside hn size.isLt
  constructor
  · intro hinside
    have hreached := fun a ha => hinside a (mem_accesses_alignPe.mpr ha)
    exact
      { dosHeader := fun hreads => (hfits (by omega)).mp fun a ha =>
          hreached a (Or.inr (Or.inl ⟨hreads, by simpa using ha⟩))
        peOffset := fun hreads => (hfits (by omega)).mp fun a ha =>
          hreached a (Or.inr (Or.inr (Or.inl ⟨hreads, ha⟩)))
        signature := fun hreads => (hfits (by omega)).mp fun a ha =>
          hreached a (Or.inr (Or.inr (Or.inr (Or.inl ⟨hreads, ha⟩))))
        fileHeader := fun hreads => (hfits (by omega)).mp fun a ha =>
          hreached a (Or.inr (Or.inr (Or.inr (Or.inr (Or.inl ⟨hreads, ha⟩)))))
        sectionHeader := fun k hwrites => (hfits (by omega)).mp fun a ha =>
          hreached a (Or.inr (Or.inr (Or.inr (Or.inr (Or.inr ⟨k, hwrites, ha⟩))))) }
  · intro hheaders a ha
    rcases mem_accesses_alignPe.mp ha with h | ⟨hreads, h⟩ | ⟨hreads, h⟩ | ⟨hreads, h⟩ |
      ⟨hreads, h⟩ | ⟨k, hwrites, h⟩
    · cases h
    · exact (hfits (by omega)).mpr (hheaders.dosHeader hreads) a (by simpa using h)
    · exact (hfits (by omega)).mpr (hheaders.peOffset hreads) a h
    · exact (hfits (by omega)).mpr (hheaders.signature hreads) a h
    · exact (hfits (by omega)).mpr (hheaders.fileHeader hreads) a h
    · exact (hfits (by omega)).mpr (hheaders.sectionHeader k hwrites) a h

end Function

/-! ## A section table at the end of the image -/

/-- All memory can be read and written. -/
def allMapped : Protection .x64 where
  readable := fun _ => true
  writable := fun _ => true

/-- An image of one page at `0x10000` with `e_lfanew = 0xF00`. Its headers are inside, and
its one section header begins 8 bytes before its end. -/
def onePageImage : Memory .x64 where
  bytes := fun a =>
    if a = 0x10000 then 0x4D
    else if a = 0x10001 then 0x5A
    else if a = 0x1003D then 0x0F
    else if a = 0x10F00 then 0x50
    else if a = 0x10F01 then 0x45
    else if a = 0x10F06 then 1
    else 0
  accesses := []

/-- The section header is rewritten, also where it lies behind the page. -/
theorem leaves_one_page : ¬ StaysInside allMapped onePageImage 0x10000 0x1000 := by
  intro hinside
  have hwrites : WritesSection allMapped onePageImage 0x10000 0 := by
    unfold WritesSection ReadsFileHeader ReadsSignature ReadsPeOffset ReadsDosHeader
    decide +kernel
  -- `SizeOfRawData`, which is written, is behind the page
  have hbehind : (0x11008 : Ptr .x64) ∈
      span (offset 0x10000 (sectionOffset onePageImage 0x10000 0 + 8)) 16 := by
    decide +kernel
  have haccess := hinside 0x11008 (mem_accesses_alignPe.mpr
    (Or.inr (Or.inr (Or.inr (Or.inr (Or.inr ⟨0, hwrites, hbehind⟩))))))
  exact absurd haccess (by decide)

end ScanMem
end ClamavWin32
