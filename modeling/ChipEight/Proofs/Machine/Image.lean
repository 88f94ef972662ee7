import ChipEight.Memory

/-!
All of the memory after a program was loaded, as one list: the fonts and the image in their
places, and zeros between and after them.
-/

namespace ChipEight

namespace Memory

/-- The bytes from `start` on, replaced by as many others. -/
def splice (bytes : List UInt8) (start : Nat) (values : List UInt8) : List UInt8 :=
  bytes.take start ++ (values ++ bytes.drop (start + values.length))

theorem length_splice {bytes values : List UInt8} {start : Nat}
    (h : start + values.length ≤ bytes.length) :
    (splice bytes start values).length = bytes.length := by
  simp only [splice, List.length_append, List.length_take, List.length_drop]
  omega

/-- Replacing one byte and then those that follow replaces them all. -/
theorem splice_set {bytes : List UInt8} {start : Nat} (h : start < bytes.length) (value : UInt8)
    (values : List UInt8) :
    splice (bytes.set start value) (start + 1) values = splice bytes start (value :: values) := by
  have hfirst : (bytes.set start value).take (start + 1) = bytes.take start ++ [value] := by
    rw [List.take_add_one, List.take_set_of_le (Nat.le_refl _), List.getElem?_set_self h]
    rfl
  have hrest : (bytes.set start value).drop (start + 1 + values.length) =
      bytes.drop (start + (value :: values).length) := by
    rw [List.drop_set_of_lt (by omega), List.length_cons]
    congr 1
    omega
  rw [splice, splice, hfirst, hrest, List.append_assoc]
  rfl

theorem toList_writeAll (memory : Memory) (address : Address) {values : List UInt8}
    (h : address.toNat + values.length ≤ 65536) :
    (memory.writeAll address values).bytes.toList =
      splice memory.bytes.toList address.toNat values := by
  induction values generalizing memory address with
  | nil => exact (List.take_append_drop _ _).symm
  | cons value values ih =>
    have hlt : address.toNat < memory.bytes.toList.length := by
      rw [Vector.length_toList]
      exact address.toNat_lt
    have hbytes : (memory.write address value).bytes.toList =
        memory.bytes.toList.set address.toNat value := Vector.toList_set address.toNat_lt
    rw [List.length_cons] at h
    cases values with
    | nil =>
      rw [writeAll, writeAll, hbytes, ← splice_set hlt]
      exact (List.take_append_drop _ _).symm
    | cons next values =>
      have hnext : (address + 1).toNat = address.toNat + 1 := by
        rw [UInt16.toNat_add, UInt16.toNat_one]
        rw [List.length_cons] at h
        exact Nat.mod_eq_of_lt (by omega)
      rw [writeAll, ih _ _ (by omega), hbytes, hnext, splice_set hlt]

/-- The bytes after a load. -/
def loadedBytes (image : List UInt8) : List UInt8 :=
  splice (splice (splice (List.replicate 65536 0) fontStart.toNat Font.small)
    bigFontStart.toNat Font.big) programStart.toNat image

theorem toList_blank :
    blank.bytes.toList = splice (splice (List.replicate 65536 0) fontStart.toNat Font.small)
      bigFontStart.toNat Font.big := by
  rw [blank, toList_writeAll _ _ (by decide +kernel), toList_writeAll _ _ (by decide +kernel)]
  rfl

theorem length_loadedBytes {image : List UInt8} (h : image.length ≤ maxImageLength) :
    (loadedBytes image).length = 65536 := by
  have hblank : blank.bytes.toList.length = 65536 := Vector.length_toList
  rw [toList_blank] at hblank
  rw [loadedBytes, length_splice, hblank]
  rw [hblank]
  exact Nat.add_le_of_le_sub' (by decide) h

/-- The memory with an image in it. -/
def holding (image : List UInt8) (h : image.length ≤ maxImageLength) : Memory :=
  { bytes := ⟨(loadedBytes image).toArray, length_loadedBytes h⟩
    imageLength := image.length }

theorem load_blank {image : List UInt8} (h : image.length ≤ maxImageLength) :
    blank.load image = .ok (holding image h) := by
  have hbytes : (blank.writeAll programStart image).bytes = (holding image h).bytes := by
    rw [← Vector.toList_inj, toList_writeAll _ _ (Nat.add_le_of_le_sub' (by decide) h),
      toList_blank]
    rfl
  rw [load, if_pos h]
  exact congrArg (fun bytes => Except.ok (Memory.mk bytes image.length)) hbytes

end Memory

end ChipEight
