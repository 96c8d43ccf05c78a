import ClamavWin32.ScanMem.AlignPeTheorems

/-!
# What the PE realignment rewrites

`align_pe` takes the section table to begin 224 bytes behind the file header, where it is in
the usual image of 32 bits; in an image of 64 bits the optional header has 240 bytes. Eight
bytes of each section header are rewritten from the eight bytes in front of them.

* `bytes_alignSections`: the loop as a whole;
* `alignPe_of_wellFormed`: what `align_pe` returns for an image, and the bytes after it;
* `realigns_iff`: when these are the headers of the section table of the image.
-/

namespace ClamavWin32
namespace ScanMem

open ByteMemory (offset offset_offset span mem_span mem_span_add notMem_span_of_mem_span
  forall_mem_span_inside)

variable {arch : Architecture}

/-! ## The property -/

/-- `offsetof (IMAGE_FILE_HEADER, SizeOfOptionalHeader)` -/
def sizeOfOptionalHeaderOffset : ℕ := 16

section Image

variable (prot : Protection arch) (m : Memory arch) (buffer size : Ptr arch)

def sizeOfOptionalHeader : ℕ :=
  m.value (offset buffer (eLfanew m buffer + 4 + sizeOfOptionalHeaderOffset)) 2

/-- The offset of a section header in the image: behind the optional header. -/
def tableOffset (k : ℕ) : ℕ := eLfanew m buffer + 24 + sizeOfOptionalHeader m buffer + 40 * k

/-- The buffer can be read and written. -/
def Accessible : Prop :=
  ∀ a, (a - buffer).toNat < size.toNat → prot.readable a = true ∧ prot.writable a = true

/-- The buffer holds an image of 32 or 64 bits, its section table included. -/
structure WellFormedImage : Prop where
  dosSignature : m.value buffer 2 = IMAGE_DOS_SIGNATURE
  signature : m.value (offset buffer (eLfanew m buffer)) 4 = IMAGE_NT_SIGNATURE
  magic : m.value (offset buffer (eLfanew m buffer + 24)) 2 = 0x10B ∨
    m.value (offset buffer (eLfanew m buffer + 24)) 2 = 0x20B
  sections : 1 ≤ numberOfSections m buffer ∧ numberOfSections m buffer ≤ 32
  table : tableOffset m buffer (numberOfSections m buffer) ≤ size.toNat

/-- `SizeOfRawData` and `PointerToRawData` of one of the section headers of a table. -/
def RawField (table : ℕ → ℕ) (a : Ptr arch) : Prop :=
  ∃ k < numberOfSections m buffer, a ∈ span (offset buffer (table k + 16)) 8

/-- `align_pe` returns 1, and its result differs from the image in the section headers of
its table only, where `PointerToRawData` is `VirtualAddress` and `SizeOfRawData` is
`VirtualSize`. -/
structure Realigns : Prop where
  ret : (alignPe prot buffer size m).1 = 1
  fields : ∀ k < numberOfSections m buffer,
    (alignPe prot buffer size m).2.value
        (offset buffer (tableOffset m buffer k + pointerToRawDataOffset)) 4 =
      (alignPe prot buffer size m).2.value
        (offset buffer (tableOffset m buffer k + virtualAddressOffset)) 4 ∧
    (alignPe prot buffer size m).2.value
        (offset buffer (tableOffset m buffer k + sizeOfRawDataOffset)) 4 =
      (alignPe prot buffer size m).2.value
        (offset buffer (tableOffset m buffer k + virtualSizeOffset)) 4
  frame : ∀ a, ¬ RawField m buffer (tableOffset m buffer) a →
    (alignPe prot buffer size m).2.bytes a = m.bytes a

/-- The headers behind an optional header of 224 bytes are accessible, and it makes no
difference whether they are rewritten or the section table of the image: the fields of
one that are not fields of the other have their new values already. -/
structure TablesAgree : Prop where
  optionalHeader : prot.isBadReadPtr (offset buffer (eLfanew m buffer + 24))
    sizeofImageOptionalHeader32 = false
  writable : ∀ k < numberOfSections m buffer,
    prot.isBadWritePtr (offset buffer (sectionOffset m buffer k)) sizeofImageSectionHeader =
      false
  fields : ∀ a, ¬(RawField m buffer (sectionOffset m buffer) a ↔
    RawField m buffer (tableOffset m buffer) a) → m.bytes (a - 8) = m.bytes a

end Image

/-! ## One section header -/

section SectionHeader

variable {m : Memory arch} {sechdr a : Ptr arch}

lemma two_pow_ptrBits (arch : Architecture) : 2 ^ 32 ≤ 2 ^ arch.ptrBits :=
  Nat.pow_le_pow_right (by omega) arch.le_ptrBits

/-- The address 8 bytes before. -/
lemma offset_sub_eight (p : Ptr arch) (k : ℕ) : offset p (k + 8) - 8 = offset p k := by
  rw [← offset_offset, offset]
  exact BitVec.add_sub_cancel _ _

/-- The two assignments copy eight bytes. -/
lemma bytes_alignSection_eq :
    (alignSection sechdr m).bytes a =
      if a ∈ span (offset sechdr 16) 8 then m.bytes (a - 8) else m.bytes a := by
  have hspace := two_pow_ptrBits arch
  by_cases ha : a ∈ span (offset sechdr 16) 8
  · rw [if_pos ha]
    obtain ⟨i, hi, rfl⟩ := mem_span.mp ha
    have hback : offset (offset sechdr 16) i - 8 = offset sechdr (8 + i) := by
      rw [offset_offset, show 16 + i = 8 + i + 8 by omega, offset_sub_eight]
    rw [hback]
    by_cases hsize : i < 4
    · -- `SizeOfRawData`, which is written last
      have hvalue : ((alignSection sechdr m).bytes (offset (offset sechdr 16) i)) =
          (m.write (offset sechdr pointerToRawDataOffset) 4
            (m.value (offset sechdr virtualAddressOffset) 4)).bytes
              (offset (offset sechdr virtualSizeOffset) i) :=
        ByteMemory.bytes_write_value (by omega) hsize
      rw [hvalue, ByteMemory.bytes_write_of_notMem, offset_offset]
      · rfl
      · have hfield : offset (offset sechdr virtualSizeOffset) i ∈ span (offset sechdr 8) 4 :=
          mem_span.mpr ⟨i, hsize, rfl⟩
        exact notMem_span_of_mem_span (x := 8) (y := 20) (by decide) (by omega) hfield
    · -- `PointerToRawData`
      have hpointer : offset (offset sechdr 16) i =
          offset (offset sechdr pointerToRawDataOffset) (i - 4) := by
        rw [offset_offset, offset_offset, pointerToRawDataOffset]
        congr 1
        omega
      have hkept : (alignSection sechdr m).bytes (offset (offset sechdr 16) i) =
          (m.write (offset sechdr pointerToRawDataOffset) 4
            (m.value (offset sechdr virtualAddressOffset) 4)).bytes
              (offset (offset sechdr pointerToRawDataOffset) (i - 4)) := by
        rw [← hpointer]
        apply ByteMemory.bytes_write_of_notMem
        have hmem : offset (offset sechdr 16) i ∈ span (offset sechdr 20) 4 :=
          mem_span.mpr ⟨i - 4, by omega, hpointer.symm⟩
        intro hlow
        exact notMem_span_of_mem_span (by decide) (by rw [sizeOfRawDataOffset]; omega) hlow hmem
      rw [hkept, ByteMemory.bytes_write_value (by omega) (by omega), offset_offset,
        virtualAddressOffset]
      congr 2
      omega
  · rw [if_neg ha, bytes_alignSection ha]

end SectionHeader

/-! ## The loop -/

section Loop

variable {prot : Protection arch} {pehdr a : Ptr arch} {n i : ℕ}

/-- The loop ends with 1 if every header may be written. -/
lemma alignSections_fst (hn : n ≤ 32) {m : Memory arch}
    (hnumber : m.value (offset pehdr 2) 2 = n) :
    (alignSections prot pehdr (offset pehdr (244 + 40 * i)) i m).1 = 1 ↔
      ∀ k, i ≤ k → k < n →
        prot.isBadWritePtr (offset pehdr (244 + 40 * k)) sizeofImageSectionHeader = false := by
  induction hd : n - i generalizing i m with
  | zero =>
    have hend : ¬ i < n := by omega
    rw [alignSections]
    simp only [numberOfSectionsOffset, ByteMemory.value_read, hnumber, if_neg hend, true_iff]
    intro k hik hkn
    omega
  | succ d ih =>
    have hin : i < n := by omega
    rw [alignSections]
    simp only [numberOfSectionsOffset, ByteMemory.value_read, hnumber, if_pos hin]
    by_cases hbad : prot.isBadWritePtr (offset pehdr (244 + 40 * i))
      sizeofImageSectionHeader = true
    · rw [if_pos hbad]
      refine iff_of_false (fun hret => by cases hret) fun hall => ?_
      rw [hall i le_rfl hin] at hbad
      cases hbad
    · have hnumber' : (alignSection (offset pehdr (244 + 40 * i))
          (m.read (offset pehdr 2) 2)).value (offset pehdr 2) 2 = n := by
        rw [numberOfSections_alignSection (by omega), ByteMemory.value_read, hnumber]
      rw [if_neg hbad, offset_offset, show 244 + 40 * i + sizeofImageSectionHeader =
        244 + 40 * (i + 1) from rfl, ih hnumber' (by omega)]
      constructor
      · intro hall k hik hkn
        by_cases hki : k = i
        · rw [hki]
          exact Bool.not_eq_true _ ▸ hbad
        · exact hall k (by omega) hkn
      · exact fun hall k hik hkn => hall k (by omega) hkn

/-- **The loop** copies eight bytes in each header, if all may be written. -/
lemma bytes_alignSections (hn : n ≤ 32) {m : Memory arch}
    (hnumber : m.value (offset pehdr 2) 2 = n)
    (hwritable : ∀ k, i ≤ k → k < n →
      prot.isBadWritePtr (offset pehdr (244 + 40 * k)) sizeofImageSectionHeader = false) :
    ((∃ k, i ≤ k ∧ k < n ∧ a ∈ span (offset pehdr (244 + 40 * k + 16)) 8) →
      (alignSections prot pehdr (offset pehdr (244 + 40 * i)) i m).2.bytes a =
        m.bytes (a - 8)) ∧
    ((¬∃ k, i ≤ k ∧ k < n ∧ a ∈ span (offset pehdr (244 + 40 * k + 16)) 8) →
      (alignSections prot pehdr (offset pehdr (244 + 40 * i)) i m).2.bytes a = m.bytes a) := by
  have hspace := two_pow_ptrBits arch
  induction hd : n - i generalizing i m with
  | zero =>
    have hend : ¬ i < n := by omega
    rw [alignSections]
    simp only [numberOfSectionsOffset, ByteMemory.value_read, hnumber, if_neg hend]
    refine ⟨?_, fun _ => rfl⟩
    rintro ⟨k, hik, hkn, -⟩
    omega
  | succ d ih =>
    have hin : i < n := by omega
    have hgood := hwritable i le_rfl hin
    have hnumber' : (alignSection (offset pehdr (244 + 40 * i))
        (m.read (offset pehdr 2) 2)).value (offset pehdr 2) 2 = n := by
      rw [numberOfSections_alignSection (by omega), ByteMemory.value_read, hnumber]
    -- the induction is on the headers left, with the memory behind this one
    obtain ⟨hlater, hrest⟩ := @ih (i + 1) _ hnumber'
      (fun k hik hkn => hwritable k (by omega) hkn) (by omega)
    rw [alignSections]
    simp only [numberOfSectionsOffset, ByteMemory.value_read, hnumber, if_pos hin, hgood,
      Bool.false_eq_true, if_false]
    rw [offset_offset, show 244 + 40 * i + sizeofImageSectionHeader =
      244 + 40 * (i + 1) from rfl]
    rw [bytes_alignSection_eq, offset_offset] at hrest
    rw [bytes_alignSection_eq, offset_offset] at hlater
    constructor
    · rintro ⟨k, hik, hkn, ha⟩
      by_cases hfield : ∃ k, i + 1 ≤ k ∧ k < n ∧ a ∈ span (offset pehdr (244 + 40 * k + 16)) 8
      · -- the bytes that a later header copies are no raw fields of this one
        rw [hlater hfield, if_neg]
        · rfl
        · obtain ⟨l, hil, hln, hl⟩ := hfield
          obtain ⟨j, hj, rfl⟩ := mem_span.mp hl
          rw [offset_offset, show 244 + 40 * l + 16 + j = 244 + 40 * l + 8 + j + 8 by omega,
            offset_sub_eight, ← offset_offset pehdr (244 + 40 * l + 8)]
          intro hmem
          exact notMem_span_of_mem_span (y := 244 + 40 * l + 8) (by omega) (by omega) hmem
            (mem_span.mpr ⟨j, hj, rfl⟩)
      · -- only this header has the byte in its raw fields
        have hki : k = i := by
          by_contra hne
          exact hfield ⟨k, by omega, hkn, ha⟩
        subst hki
        rw [hrest hfield, if_pos ha]
        rfl
    · intro hnone
      have hnot : a ∉ span (offset pehdr (244 + 40 * i + 16)) 8 :=
        fun ha => hnone ⟨i, le_rfl, hin, ha⟩
      rw [hrest, if_neg hnot]
      · rfl
      · rintro ⟨k, hik, hkn, ha⟩
        exact hnone ⟨k, by omega, hkn, ha⟩

end Loop

/-! ## An image -/

section Image

variable {prot : Protection arch} {m : Memory arch} {buffer size a : Ptr arch}

/-- What ends in the buffer lies in it. -/
lemma Accessible.of_mem_span (h : Accessible prot buffer size) {x n : ℕ}
    (hfits : x + n ≤ size.toNat) (ha : a ∈ span (offset buffer x) n) :
    prot.readable a = true ∧ prot.writable a = true := by
  have hpos : 0 < n := by
    obtain ⟨k, hk, -⟩ := mem_span.mp ha
    omega
  have hmod : x % 2 ^ arch.ptrBits ≤ x := Nat.mod_le _ _
  exact h a ((forall_mem_span_inside hpos size.isLt).mpr (by omega) a ha)

lemma Accessible.readable (h : Accessible prot buffer size) {x n : ℕ}
    (hfits : x + n ≤ size.toNat) : prot.isBadReadPtr (offset buffer x) n = false := by
  rw [Protection.isBadReadPtr, Bool.not_eq_false', List.all_eq_true]
  exact fun a ha => (h.of_mem_span hfits ha).1

lemma Accessible.writable (h : Accessible prot buffer size) {x n : ℕ}
    (hfits : x + n ≤ size.toNat) : prot.isBadWritePtr (offset buffer x) n = false := by
  rw [Protection.isBadWritePtr, Bool.not_eq_false', List.all_eq_true]
  exact fun a ha => (h.of_mem_span hfits ha).2

/-- The signatures are not at the same place. -/
lemma WellFormedImage.eLfanew_ne_zero (h : WellFormedImage m buffer size) :
    eLfanew m buffer ≠ 0 := by
  intro hzero
  have hfirst := ByteMemory.ofNat_value_div m buffer (i := 0) (n := 2) (by omega)
  have hsecond := ByteMemory.ofNat_value_div m (offset buffer 0) (i := 0) (n := 4) (by omega)
  have hsignature := h.signature
  rw [hzero] at hsignature
  rw [h.dosSignature] at hfirst
  rw [hsignature, offset_offset, Nat.zero_add, ← hfirst] at hsecond
  exact absurd hsecond (by decide)

/-- `align_pe` gets to the number of sections of an image if the 224 bytes behind the file
header can be read, and fails otherwise. -/
lemma readsFileHeader_of_wellFormed (haccess : Accessible prot buffer size)
    (himage : WellFormedImage m buffer size) :
    (prot.isBadReadPtr (offset buffer (eLfanew m buffer + 24)) sizeofImageOptionalHeader32 =
        false ∧ ReadsFileHeader prot m buffer) ∨
      (prot.isBadReadPtr (offset buffer (eLfanew m buffer + 24)) sizeofImageOptionalHeader32 =
        true ∧ (alignPe prot buffer size m).1 = 0) := by
  have htable := himage.table
  have hpos := himage.sections.1
  rw [tableOffset] at htable
  have hdos : prot.isBadReadPtr buffer 2 = false := by
    have hread := haccess.readable (x := 0) (n := 2) (by omega)
    rwa [ByteMemory.offset_zero] at hread
  have hoffset : prot.isBadReadPtr (offset buffer 0x3C) 4 = false :=
    haccess.readable (by omega)
  have hsignature : prot.isBadReadPtr (offset buffer (eLfanew m buffer)) 4 = false :=
    haccess.readable (by omega)
  have hfile : prot.isBadReadPtr (offset buffer (eLfanew m buffer + 4))
      sizeofImageFileHeader = false :=
    haccess.readable (by rw [sizeofImageFileHeader]; omega)
  have hzero := himage.eLfanew_ne_zero
  have hmagic := himage.signature
  cases hoptional : prot.isBadReadPtr (offset buffer (eLfanew m buffer + 24))
    sizeofImageOptionalHeader32 with
  | false =>
    exact Or.inl ⟨rfl, ⟨⟨hdos, himage.dosSignature, hoffset⟩, hzero, hsignature⟩, hmagic,
      hfile, hoptional⟩
  | true =>
    refine Or.inr ⟨rfl, ?_⟩
    rw [eLfanew] at hzero hsignature hmagic hfile hoptional
    have hoptional' : prot.isBadReadPtr (offset buffer
        (m.value (offset buffer 0x3C) 4 + 4 + sizeofImageFileHeader))
          sizeofImageOptionalHeader32 = true := hoptional
    simp only [alignPe, ByteMemory.value_read, hdos, himage.dosSignature, hoffset, hzero,
      hsignature, hmagic, hfile, hoptional', offset_offset, Bool.false_eq_true, ne_eq,
      not_true_eq_false, if_false, if_true]

/-- **What `align_pe` does to an image**: it returns 1 if the headers behind an optional
header of 224 bytes are accessible, and then it has copied the eight bytes in each. -/
lemma alignPe_of_wellFormed (haccess : Accessible prot buffer size)
    (himage : WellFormedImage m buffer size) :
    ((alignPe prot buffer size m).1 = 1 ↔
      prot.isBadReadPtr (offset buffer (eLfanew m buffer + 24)) sizeofImageOptionalHeader32 =
        false ∧
      ∀ k < numberOfSections m buffer, prot.isBadWritePtr
        (offset buffer (sectionOffset m buffer k)) sizeofImageSectionHeader = false) ∧
    ((alignPe prot buffer size m).1 = 1 →
      (RawField m buffer (sectionOffset m buffer) a →
        (alignPe prot buffer size m).2.bytes a = m.bytes (a - 8)) ∧
      (¬RawField m buffer (sectionOffset m buffer) a →
        (alignPe prot buffer size m).2.bytes a = m.bytes a)) := by
  obtain ⟨hpos, hle⟩ := himage.sections
  rcases readsFileHeader_of_wellFormed haccess himage with ⟨hoptional, hreads⟩ |
    ⟨hoptional, hret⟩
  · have hcount : ¬(numberOfSections m buffer < 1 ∨ 32 < numberOfSections m buffer) := by omega
    -- the loop counts from the file header, the image from its beginning
    have hheader (x k : ℕ) : offset (offset buffer (eLfanew m buffer + 4)) (244 + 40 * k + x) =
        offset buffer (sectionOffset m buffer k + x) := by
      rw [offset_offset, sectionOffset]
      congr 1
      omega
    have hheader' (k : ℕ) : offset (offset buffer (eLfanew m buffer + 4)) (244 + 40 * k) =
        offset buffer (sectionOffset m buffer k) := hheader 0 k
    have hnumber := numberOfSections_read m buffer
    have hfst := @alignSections_fst _ prot _ _ 0 hle _ hnumber
    rw [alignPe_of_readsFileHeader hreads]
    simp only [if_neg hcount]
    simp only [hheader'] at hfst
    refine ⟨?_, fun hret => ?_⟩
    · rw [hheader', hfst, and_iff_right hoptional]
      exact ⟨fun h k hk => h k (Nat.zero_le k) hk, fun h k _ hk => h k hk⟩
    · rw [hheader', hfst] at hret
      have hbytes := @bytes_alignSections _ prot _ a _ 0 hle _ hnumber (by
        intro k hk hkn
        rw [hheader']
        exact hret k hk hkn)
      simp only [hheader, Nat.zero_le, true_and] at hbytes
      exact hbytes
  · refine ⟨iff_of_false ?_ ?_, fun h => ?_⟩
    · rw [hret]
      decide
    · rw [hoptional]
      exact fun h => by cases h.1
    · rw [hret] at h
      cases h

/-- What a raw field is copied from is no raw field. -/
lemma WellFormedImage.not_rawField_sub (h : WellFormedImage m buffer size)
    (ha : RawField m buffer (tableOffset m buffer) a) :
    ¬RawField m buffer (tableOffset m buffer) (a - 8) := by
  have hsize := size.isLt
  have htable := h.table
  rintro ⟨l, hl, hmem⟩
  obtain ⟨k, hk, ha⟩ := ha
  obtain ⟨j, hj, rfl⟩ := mem_span.mp ha
  have hback : offset (offset buffer (tableOffset m buffer k + 16)) j - 8 =
      offset (offset buffer (tableOffset m buffer k + 8)) j := by
    rw [offset_offset, offset_offset,
      show tableOffset m buffer k + 16 + j = tableOffset m buffer k + 8 + j + 8 by omega,
      offset_sub_eight]
  have hspan : offset (offset buffer (tableOffset m buffer k + 8)) j ∈
      span (offset buffer (tableOffset m buffer k + 8)) 8 := mem_span.mpr ⟨j, hj, rfl⟩
  rw [hback] at hmem
  simp only [tableOffset] at htable hmem hspan
  by_cases hkl : k ≤ l
  · exact notMem_span_of_mem_span (by omega) (by omega) hspan hmem
  · exact notMem_span_of_mem_span (by omega) (by omega) hmem hspan

/-- The fields and the frame of a realigned image, byte by byte. -/
lemma realigns_iff_bytes (himage : WellFormedImage m buffer size) :
    Realigns prot m buffer size ↔
      (alignPe prot buffer size m).1 = 1 ∧ ∀ a,
        (RawField m buffer (tableOffset m buffer) a →
          (alignPe prot buffer size m).2.bytes a = m.bytes (a - 8)) ∧
        (¬RawField m buffer (tableOffset m buffer) a →
          (alignPe prot buffer size m).2.bytes a = m.bytes a) := by
  have hback (k x : ℕ) : offset buffer (tableOffset m buffer k + (x + 8)) - 8 =
      offset buffer (tableOffset m buffer k + x) := by
    rw [← Nat.add_assoc, offset_sub_eight]
  have hraw {k x : ℕ} (hk : k < numberOfSections m buffer) (hx : 16 ≤ x) (hx' : x < 24) :
      RawField m buffer (tableOffset m buffer) (offset buffer (tableOffset m buffer k + x)) := by
    refine ⟨k, hk, mem_span.mpr ⟨x - 16, by omega, ?_⟩⟩
    rw [offset_offset]
    congr 1
    omega
  constructor
  · intro h
    refine ⟨h.ret, fun a => ⟨fun ha => ?_, h.frame a⟩⟩
    rw [← h.frame (a - 8) (himage.not_rawField_sub ha)]
    obtain ⟨k, hk, hspan⟩ := ha
    obtain ⟨j, hj, rfl⟩ := mem_span.mp hspan
    obtain ⟨hpointer, hsize⟩ := h.fields k hk
    rw [ByteMemory.value_eq_iff] at hpointer hsize
    have haddr : offset (offset buffer (tableOffset m buffer k + 16)) j =
        offset buffer (tableOffset m buffer k + ((8 + j) + 8)) := by
      rw [offset_offset]
      congr 1
      omega
    rw [haddr, hback]
    by_cases hlow : j < 4
    · have hj := hsize j hlow
      rw [offset_offset, offset_offset] at hj
      convert hj using 3 <;> simp only [sizeOfRawDataOffset, virtualSizeOffset] <;> omega
    · have hj := hpointer (j - 4) (by omega)
      rw [offset_offset, offset_offset] at hj
      convert hj using 3 <;> simp only [pointerToRawDataOffset, virtualAddressOffset] <;> omega
  · rintro ⟨hret, hbytes⟩
    -- a field and the one that it is copied from
    have hcopied {k x i : ℕ} (hk : k < numberOfSections m buffer) (hx : 8 ≤ x) (hx' : x ≤ 12)
        (hi : i < 4) : (alignPe prot buffer size m).2.bytes
          (offset (offset buffer (tableOffset m buffer k + (x + 8))) i) =
        (alignPe prot buffer size m).2.bytes
          (offset (offset buffer (tableOffset m buffer k + x)) i) := by
      have hfield := @hraw k (x + i + 8) hk (by omega) (by omega)
      have hsource := himage.not_rawField_sub hfield
      rw [hback] at hsource
      have hleft := (hbytes _).1 hfield
      rw [hback] at hleft
      rw [offset_offset, offset_offset,
        show tableOffset m buffer k + (x + 8) + i = tableOffset m buffer k + (x + i + 8) by omega,
        hleft, Nat.add_assoc _ x i, (hbytes _).2 hsource]
    refine ⟨hret, fun k hk => ⟨?_, ?_⟩, fun a => (hbytes a).2⟩
    · rw [ByteMemory.value_eq_iff]
      exact fun i hi => hcopied hk (by decide) (by decide) hi
    · rw [ByteMemory.value_eq_iff]
      exact fun i hi => hcopied hk (by decide) (by decide) hi

/-- With an optional header of 224 bytes both tables are the same. -/
lemma tablesAgree_of_sizeOfOptionalHeader (haccess : Accessible prot buffer size)
    (himage : WellFormedImage m buffer size) (h224 : sizeOfOptionalHeader m buffer = 224) :
    TablesAgree prot m buffer := by
  have htable := himage.table
  rw [tableOffset, h224] at htable
  have hsame : sectionOffset m buffer = tableOffset m buffer := by
    funext k
    rw [sectionOffset, tableOffset, h224]
  refine ⟨haccess.readable ?_, fun k hk => haccess.writable ?_, fun a ha => ?_⟩
  · rw [sizeofImageOptionalHeader32]
    omega
  · rw [sectionOffset, sizeofImageSectionHeader]
    omega
  · rw [hsame] at ha
    exact absurd Iff.rfl ha

/-- **When the section table is rewritten exactly**: the optional header has 224 bytes, or
it makes no difference which of the two tables is rewritten. -/
theorem realigns_iff (haccess : Accessible prot buffer size)
    (himage : WellFormedImage m buffer size) :
    Realigns prot m buffer size ↔
      sizeOfOptionalHeader m buffer = 224 ∨ TablesAgree prot m buffer := by
  have hagree : sizeOfOptionalHeader m buffer = 224 ∨ TablesAgree prot m buffer ↔
      TablesAgree prot m buffer :=
    or_iff_right_of_imp (tablesAgree_of_sizeOfOptionalHeader haccess himage)
  have hret := (alignPe_of_wellFormed (a := buffer) haccess himage).1
  have hpatched := fun a => (alignPe_of_wellFormed (a := a) haccess himage).2
  rw [hagree, realigns_iff_bytes himage]
  constructor
  · rintro ⟨hone, hbytes⟩
    obtain ⟨hoptional, hwritable⟩ := hret.mp hone
    refine ⟨hoptional, hwritable, fun a hne => ?_⟩
    obtain ⟨hcopied, hkept⟩ := hpatched a hone
    by_cases hcode : RawField m buffer (sectionOffset m buffer) a
    · have htable : ¬RawField m buffer (tableOffset m buffer) a :=
        fun h => hne (iff_of_true hcode h)
      rw [← hcopied hcode, (hbytes a).2 htable]
    · have htable : RawField m buffer (tableOffset m buffer) a := by
        by_contra h
        exact hne (iff_of_false hcode h)
      rw [← hkept hcode, (hbytes a).1 htable]
  · intro hagree
    have hone := hret.mpr ⟨hagree.optionalHeader, hagree.writable⟩
    refine ⟨hone, fun a => ?_⟩
    obtain ⟨hcopied, hkept⟩ := hpatched a hone
    by_cases hcode : RawField m buffer (sectionOffset m buffer) a
    · refine ⟨fun _ => hcopied hcode, fun htable => ?_⟩
      rw [hcopied hcode]
      exact hagree.fields a fun h => htable (h.mp hcode)
    · refine ⟨fun htable => ?_, fun _ => hkept hcode⟩
      rw [hkept hcode]
      exact (hagree.fields a fun h => hcode (h.mpr htable)).symm

end Image

/-! ## Images of 32 and of 64 bits -/

/-- An image at `0x10000` with `e_lfanew = 0x80`, one section, an optional header of `opt`
bytes with the magic number `magic`, and the section header of 40 bytes `sechdr`. -/
def smallImage (magic opt : ℕ) (sechdr : ℕ → UInt8) : Memory .x64 where
  bytes := fun a =>
    if a = 0x10000 then 0x4D
    else if a = 0x10001 then 0x5A
    else if a = 0x1003C then 0x80
    else if a = 0x10080 then 0x50
    else if a = 0x10081 then 0x45
    else if a = 0x10086 then 1
    else if a = 0x10094 then UInt8.ofNat opt
    else if a = 0x10098 then UInt8.ofNat magic
    else if a = 0x10099 then UInt8.ofNat (magic / 256)
    else if 0x10098 + opt ≤ a.toNat then sechdr (a.toNat - (0x10098 + opt)) else 0
  accesses := []

/-- `VirtualSize` is `0x1000`, `VirtualAddress` is `0x2000`, `SizeOfRawData` is `0x200` and
`PointerToRawData` is `0x400`. -/
def textSection : ℕ → UInt8
  | 9 => 0x10
  | 13 => 0x20
  | 17 => 0x02
  | 21 => 0x04
  | _ => 0

lemma accessible_allMapped (buffer size : Ptr .x64) : Accessible allMapped buffer size :=
  fun _ _ => ⟨rfl, rfl⟩

/-- The section header of an image of 32 bits is realigned. -/
theorem realigns_image32 : WellFormedImage (smallImage 0x10B 224 textSection) 0x10000 0x1000 ∧
    Realigns allMapped (smallImage 0x10B 224 textSection) 0x10000 0x1000 := by
  have himage : WellFormedImage (smallImage 0x10B 224 textSection) 0x10000 0x1000 :=
    ⟨by decide +kernel, by decide +kernel, by decide +kernel, by decide +kernel,
      by decide +kernel⟩
  exact ⟨himage, (realigns_iff (accessible_allMapped _ _) himage).mpr
    (Or.inl (by decide +kernel))⟩

/-- In an image of 64 bits `PointerToRawData` is left at `0x400`. -/
theorem image64_not_realigned :
    Accessible allMapped 0x10000 0x1000 ∧
      WellFormedImage (smallImage 0x20B 240 textSection) 0x10000 0x1000 ∧
      ¬Realigns allMapped (smallImage 0x20B 240 textSection) 0x10000 0x1000 := by
  have haccess := accessible_allMapped 0x10000 0x1000
  have himage : WellFormedImage (smallImage 0x20B 240 textSection) 0x10000 0x1000 :=
    ⟨by decide +kernel, by decide +kernel, by decide +kernel, by decide +kernel,
      by decide +kernel⟩
  refine ⟨haccess, himage, fun h => ?_⟩
  -- byte 1 of `PointerToRawData`, which is no raw field where the code looks for the table
  have hcode : ¬RawField (smallImage 0x20B 240 textSection) 0x10000
      (sectionOffset (smallImage 0x20B 240 textSection) 0x10000) 0x1019D := by
    unfold RawField
    decide +kernel
  have htable : RawField (smallImage 0x20B 240 textSection) 0x10000
      (tableOffset (smallImage 0x20B 240 textSection) 0x10000) 0x1019D := by
    unfold RawField
    decide +kernel
  have hkept := ((alignPe_of_wellFormed haccess himage).2 h.ret).2 hcode
  have hcopied := (((realigns_iff_bytes himage).mp h).2 0x1019D).1 htable
  rw [hkept] at hcopied
  exact absurd hcopied (by decide +kernel)

end ScanMem
end ClamavWin32
