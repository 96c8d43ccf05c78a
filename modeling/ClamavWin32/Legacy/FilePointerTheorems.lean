import ClamavWin32.Legacy.FilePointer
import Mathlib.Tactic.Linarith

/-!
# When the file offsets agree with 64-bit arithmetic

* `Agrees`: what `SetFilePointerEx` promises for one move;
* `low_eq_invalid_iff`: the low halves that are the mark of a failure;
* `getFileSizeEx_eq`: every size is returned, whatever its low half;
* `fileOffsets_iff`: a move is as promised unless the position that it reaches has the mark of a
  failure for its low half.
-/

namespace ClamavWin32
namespace FilePointer

/-- The move is made and its target returned if that is a position; else nothing changes. -/
structure Agrees (setFilePointer : SetFilePointer) (file : OpenFile) (distance : LargeInteger)
    (lpNewFilePointer : Bool) (method : MoveMethod) : Prop where
  returns : (setFilePointerEx setFilePointer file distance lpNewFilePointer method).1 = true ↔
    IsPosition (file.target distance method)
  stores : (setFilePointerEx setFilePointer file distance lpNewFilePointer method).1 = true →
    (setFilePointerEx setFilePointer file distance lpNewFilePointer method).2.1.map
      LargeInteger.quadPart =
        if lpNewFilePointer then some (file.target distance method) else none
  moves : (setFilePointerEx setFilePointer file distance lpNewFilePointer method).1 = true →
    (setFilePointerEx setFilePointer file distance lpNewFilePointer method).2.2.position =
      file.target distance method
  keeps : (setFilePointerEx setFilePointer file distance lpNewFilePointer method).1 = false →
    (setFilePointerEx setFilePointer file distance lpNewFilePointer method).2.2.position =
      file.position

/-! ## Halves -/

/-- The low half of a value is its remainder. -/
lemma LargeInteger.lowPart_eq {li : LargeInteger} {x : ℤ} (h : li.quadPart = x) :
    (li.LowPart.toNat : ℤ) = x % 2 ^ 32 := by
  have hlt := li.LowPart.toNat_lt
  rw [← h, LargeInteger.quadPart]
  omega

/-- The values whose low half is the mark of a failure. -/
lemma low_eq_invalid_iff {li : LargeInteger} {x : ℤ} (h : li.quadPart = x) :
    li.LowPart = INVALID_SET_FILE_POINTER ↔ x % 2 ^ 32 = 2 ^ 32 - 1 := by
  have hlow := li.lowPart_eq h
  have hmark : INVALID_SET_FILE_POINTER.toNat = 2 ^ 32 - 1 := by decide
  rw [← UInt32.toNat_inj, hmark]
  omega

/-- A high half below `2 ^ 31` is not changed by the conversion to `LONG`. -/
lemma toInt_toInt32 {high : UInt32} (h : high.toNat < 2 ^ 31) :
    high.toInt32.toInt = high.toNat := by
  have hbits : high.toInt32.toBitVec.toNat = high.toNat := rfl
  rw [← Int32.toInt_toBitVec, BitVec.toInt_eq_toNat_of_lt (by omega), hbits]

/-! ## The size of a file -/

/-- **Every size is returned**: the last error tells a size from a failure. -/
lemma getFileSizeEx_eq {getFileSize : GetFileSize} (h : GetFileSize.Documented getFileSize)
    (file : OpenFile) :
    (getFileSizeEx getFileSize file).map LargeInteger.quadPart = some (file.size : ℤ) := by
  have hstored : getFileSizeEx getFileSize file =
      some ⟨(getFileSize file).value, (getFileSize file).high.toInt32⟩ := by
    unfold getFileSizeEx
    by_cases hlow : (getFileSize file).value = INVALID_FILE_SIZE
    · simp [hlow, h.succeeds file hlow]
    · simp [hlow]
  have hsize := h.sizes file
  have hlt := file.size_lt
  rw [hstored, Option.map_some, LargeInteger.quadPart, toInt_toInt32 (by omega)]
  rw [← hsize]
  push_cast
  rfl

/-! ## The position of a file -/

section

variable {setFilePointer : SetFilePointer} {file : OpenFile} {distance : LargeInteger}
  {method : MoveMethod} (lpNewFilePointer : Bool)

/-- The function takes the mark for a failure. -/
lemma setFilePointerEx_false
    (h : (setFilePointer file distance.LowPart distance.HighPart method).value =
      INVALID_SET_FILE_POINTER) :
    setFilePointerEx setFilePointer file distance lpNewFilePointer method =
      (false, none, (setFilePointer file distance.LowPart distance.HighPart method).file) :=
  if_pos h

lemma setFilePointerEx_true
    (h : (setFilePointer file distance.LowPart distance.HighPart method).value ≠
      INVALID_SET_FILE_POINTER) :
    setFilePointerEx setFilePointer file distance lpNewFilePointer method =
      (true,
        if lpNewFilePointer then
          some ⟨(setFilePointer file distance.LowPart distance.HighPart method).value,
            (setFilePointer file distance.LowPart distance.HighPart method).high⟩
        else none,
        (setFilePointer file distance.LowPart distance.HighPart method).file) :=
  if_neg h

/-- What is not a position is refused. -/
lemma agrees_of_not_isPosition (hset : SetFilePointer.Documented setFilePointer)
    (h : ¬IsPosition (file.target distance method)) :
    Agrees setFilePointer file distance lpNewFilePointer method := by
  obtain ⟨hkeeps, hmark, -⟩ := hset.fails file distance.LowPart distance.HighPart method h
  have hcall := setFilePointerEx_false lpNewFilePointer hmark
  constructor
  · rw [hcall]
    exact iff_of_false Bool.false_ne_true h
  · rw [hcall]
    exact fun hfalse => absurd hfalse Bool.false_ne_true
  · rw [hcall]
    exact fun hfalse => absurd hfalse Bool.false_ne_true
  · rw [hcall]
    exact fun _ => hkeeps

/-- A position is reached, and returned unless its low half is the mark. -/
lemma agrees_iff_of_isPosition (hset : SetFilePointer.Documented setFilePointer)
    (h : IsPosition (file.target distance method)) :
    Agrees setFilePointer file distance lpNewFilePointer method ↔
      file.target distance method % 2 ^ 32 ≠ 2 ^ 32 - 1 := by
  obtain ⟨hmoves, hquad, -⟩ := hset.moves file distance.LowPart distance.HighPart method h
  have hmark := low_eq_invalid_iff hquad
  constructor
  · -- with the mark in its low half the move is made, and `FALSE` returned
    intro hagrees hlow
    have hreturns := hagrees.returns.mpr h
    rw [setFilePointerEx_false _ (hmark.mpr hlow)] at hreturns
    exact Bool.false_ne_true hreturns
  · intro hlow
    have hcall := setFilePointerEx_true lpNewFilePointer (mt hmark.mp hlow)
    constructor
    · rw [hcall]
      exact iff_of_true rfl h
    · rw [hcall]
      intro _
      cases lpNewFilePointer with
      | false => rfl
      | true => exact congrArg some hquad
    · rw [hcall]
      exact fun _ => hmoves
    · rw [hcall]
      exact fun hfalse => absurd hfalse.symm Bool.false_ne_true

end

/-- **The file offsets.** A move agrees with 64-bit arithmetic if and only if it does not reach a
position whose low half is `0xFFFFFFFF`. The size of a file is always returned. -/
theorem fileOffsets_iff {setFilePointer : SetFilePointer} {getFileSize : GetFileSize}
    (hset : SetFilePointer.Documented setFilePointer)
    (hget : GetFileSize.Documented getFileSize) (file : OpenFile) (distance : LargeInteger)
    (lpNewFilePointer : Bool) (method : MoveMethod) :
    Agrees setFilePointer file distance lpNewFilePointer method ∧
      (getFileSizeEx getFileSize file).map LargeInteger.quadPart = some (file.size : ℤ) ↔
    (IsPosition (file.target distance method) →
      file.target distance method % 2 ^ 32 ≠ 2 ^ 32 - 1) := by
  rw [and_iff_left (getFileSizeEx_eq hget file)]
  by_cases h : IsPosition (file.target distance method)
  · rw [agrees_iff_of_isPosition lpNewFilePointer hset h]
    exact ⟨fun hne _ => hne, fun hne => hne h⟩
  · exact iff_of_true (agrees_of_not_isPosition lpNewFilePointer hset h) fun hpos => absurd hpos h

/-! ## The documented functions -/

/-- The value in two halves. -/
def LargeInteger.ofInt (x : ℤ) : LargeInteger :=
  ⟨UInt32.ofNat (x % 2 ^ 32).toNat, Int32.ofInt (x / 2 ^ 32)⟩

lemma LargeInteger.quadPart_ofInt {x : ℤ} (hlo : -2 ^ 63 ≤ x) (hhi : x < 2 ^ 63) :
    (LargeInteger.ofInt x).quadPart = x := by
  have hlow : (UInt32.ofNat (x % 2 ^ 32).toNat).toNat = (x % 2 ^ 32).toNat :=
    UInt32.toNat_ofNat_of_lt' (show (x % 2 ^ 32).toNat < 2 ^ 32 by omega)
  have hhigh : (Int32.ofInt (x / 2 ^ 32)).toInt = x / 2 ^ 32 :=
    Int32.toInt_ofInt_of_le (by omega) (by omega)
  show (Int32.ofInt (x / 2 ^ 32)).toInt * 2 ^ 32 +
    ((UInt32.ofNat (x % 2 ^ 32).toNat).toNat : ℤ) = x
  rw [hlow, hhigh]
  omega

def ERROR_NEGATIVE_SEEK : ErrorCode := 131

/-- `SetFilePointer` as it is documented. -/
def seek : SetFilePointer := fun file low high method =>
  let target := file.target ⟨low, high⟩ method
  if h : IsPosition target then
    { value := (LargeInteger.ofInt target).LowPart
      high := (LargeInteger.ofInt target).HighPart
      lastError := NO_ERROR
      file :=
        { file with
          position := target.toNat
          position_lt := (Int.toNat_lt h.1).mpr h.2 } }
  else ⟨INVALID_SET_FILE_POINTER, high, ERROR_NEGATIVE_SEEK, file⟩

section

variable {file : OpenFile} {low : UInt32} {high : Int32} {method : MoveMethod}

lemma seek_of_isPosition (h : IsPosition (file.target ⟨low, high⟩ method)) :
    seek file low high method =
      { value := (LargeInteger.ofInt (file.target ⟨low, high⟩ method)).LowPart
        high := (LargeInteger.ofInt (file.target ⟨low, high⟩ method)).HighPart
        lastError := NO_ERROR
        file :=
          { file with
            position := (file.target ⟨low, high⟩ method).toNat
            position_lt := (Int.toNat_lt h.1).mpr h.2 } } :=
  dif_pos h

lemma seek_of_not_isPosition (h : ¬IsPosition (file.target ⟨low, high⟩ method)) :
    seek file low high method = ⟨INVALID_SET_FILE_POINTER, high, ERROR_NEGATIVE_SEEK, file⟩ :=
  dif_neg h

end

lemma seek_documented : SetFilePointer.Documented seek where
  size_eq file low high method := by
    by_cases h : IsPosition (file.target ⟨low, high⟩ method)
    · rw [seek_of_isPosition h]
    · rw [seek_of_not_isPosition h]
  moves file low high method h := by
    have hquad := LargeInteger.quadPart_ofInt
      (show -2 ^ 63 ≤ file.target ⟨low, high⟩ method from by linarith [h.1]) h.2
    rw [seek_of_isPosition h]
    exact ⟨Int.toNat_of_nonneg h.1, hquad, fun _ => rfl⟩
  fails file low high method h := by
    rw [seek_of_not_isPosition h]
    refine ⟨rfl, rfl, ?_⟩
    show ERROR_NEGATIVE_SEEK ≠ NO_ERROR
    decide

/-- `GetFileSize` as it is documented. -/
def size : GetFileSize := fun file =>
  ⟨UInt32.ofNat (file.size % 2 ^ 32), UInt32.ofNat (file.size / 2 ^ 32), NO_ERROR⟩

lemma size_documented : GetFileSize.Documented size where
  sizes file := by
    have hlt := file.size_lt
    have hlow : (UInt32.ofNat (file.size % 2 ^ 32)).toNat = file.size % 2 ^ 32 :=
      UInt32.toNat_ofNat_of_lt' (Nat.mod_lt _ (by decide))
    have hhigh : (UInt32.ofNat (file.size / 2 ^ 32)).toNat = file.size / 2 ^ 32 :=
      UInt32.toNat_ofNat_of_lt' (show file.size / 2 ^ 32 < 2 ^ 32 by omega)
    show (UInt32.ofNat (file.size / 2 ^ 32)).toNat * 2 ^ 32 +
      (UInt32.ofNat (file.size % 2 ^ 32)).toNat = file.size
    rw [hlow, hhigh]
    omega
  succeeds _ _ := rfl

/-- An empty file. -/
def emptyFile : OpenFile := ⟨0, 0, by decide, by decide⟩

/-- A move to the position `2 ^ 32`. -/
theorem fileOffsets_fourGigabytes :
    Agrees seek emptyFile ⟨0, 1⟩ true .FILE_BEGIN :=
  ((fileOffsets_iff seek_documented size_documented emptyFile ⟨0, 1⟩ true .FILE_BEGIN).mpr
    (fun _ => by decide)).1

/-- One byte before it, the move is made and reported as a failure. -/
theorem fileOffsets_oneBefore :
    ¬Agrees seek emptyFile ⟨0xFFFFFFFF, 0⟩ true .FILE_BEGIN ∧
    (setFilePointerEx seek emptyFile ⟨0xFFFFFFFF, 0⟩ true .FILE_BEGIN).1 = false ∧
    (setFilePointerEx seek emptyFile ⟨0xFFFFFFFF, 0⟩ true .FILE_BEGIN).2.2.position =
      0xFFFFFFFF := by
  have hfalse : (setFilePointerEx seek emptyFile ⟨0xFFFFFFFF, 0⟩ true .FILE_BEGIN).1 = false := by
    decide
  have hmoved : (setFilePointerEx seek emptyFile ⟨0xFFFFFFFF, 0⟩ true .FILE_BEGIN).2.2.position =
      0xFFFFFFFF := by
    decide
  refine ⟨?_, hfalse, hmoved⟩
  intro hagrees
  have hkeeps := hagrees.keeps hfalse
  rw [hmoved] at hkeeps
  exact absurd hkeeps (by decide)

end FilePointer
end ClamavWin32
