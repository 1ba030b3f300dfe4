import BootMemory.Address
import BootMemory.Proofs.Alignment

/-!
# Addresses and their frames

A physical address is taken apart by three operations on its bits: a shift yields
the number of its frame, a mask the distance from the start of the frame, and the
complement of that mask the start itself.  All three are division by the size of
a frame, and `Address.decomposes` says that they fit together for every address.

An address is a word, so frame numbers from `frameCount` on have none.
`Address.numbersFrames` says which address they lead to nevertheless, and that
frame numbers tell addresses apart just as far as the starts of frames do.
-/

namespace BootMemory.Address

variable {space : Space}

/-! ## The operations as division -/

theorem toNat_offset (address : Address space) :
    address.offset.toNat = address.value.toNat % frameSize := by
  rw [offset, UInt64.toNat_and]
  exact Nat.and_two_pow_sub_one_eq_mod address.value.toNat 12

theorem toNat_alignDown (address : Address space) :
    address.alignDown.value.toNat =
      address.value.toNat / frameSize * frameSize := by
  have word : (4096 : UInt64) = UInt64.ofNat (2 ^ 12) := rfl
  have size : 2 ^ 12 = frameSize := rfl
  rw [alignDown, word, toNat_maskDown address.value (by decide), size]

theorem toNat_shift (address : Address space) :
    (address.value >>> UInt64.ofNat PageSize.fourKiB.shift).toNat =
      address.value.toNat / frameSize := by
  rw [UInt64.toNat_shiftRight]
  exact Nat.shiftRight_eq_div_pow address.value.toNat 12

/-- The start of a frame is its number shifted up; high bits are lost. -/
theorem ofFrame_eq_shift (index : Nat) :
    ofFrame index =
      ⟨UInt64.ofNat index <<< UInt64.ofNat PageSize.fourKiB.shift⟩ := by
  apply eq_of_toNat_eq
  have shifted :
      (UInt64.ofNat index <<< UInt64.ofNat PageSize.fourKiB.shift).toNat =
        index % wordCount * 2 ^ 12 % wordCount := by
    rw [UInt64.toNat_shiftLeft, UInt64.toNat_ofNat']
    exact congrArg (· % wordCount) (Nat.shiftLeft_eq _ 12)
  rw [shifted]
  simp only [ofFrame, UInt64.toNat_ofNat', frameSize, wordCount]
  omega

theorem toNat_ofFrame_frame (address : PhysicalAddress) :
    (ofFrame address.frame).value.toNat = address.frame * frameSize :=
  toNat_ofFrame address.frame_lt

/-! ## One frame, told in three ways -/

/-- The parts of an address belong to one frame and make up the address. -/
structure Decomposes (address : PhysicalAddress) : Prop where
  frame_eq :
    address.frame =
      (address.value >>> UInt64.ofNat PageSize.fourKiB.shift).toNat
  rounded : ∀ profile,
    BootMemory.alignDown profile address.value 4096 =
      .ok address.alignDown.value
  start_eq : ofFrame address.frame = address.alignDown
  sum_eq : ∀ profile,
    address.alignDown.add profile address.offset = .ok address
  offset_lt : address.offset.toNat < frameSize
  aligned_iff : address.isAligned = true ↔ address.alignDown = address

/-- Frame numbers lead to addresses and tell them apart by their frames. -/
structure NumbersFrames : Prop where
  start_eq : ∀ index,
    ofFrame index =
      ⟨UInt64.ofNat index <<< UInt64.ofNat PageSize.fourKiB.shift⟩
  number_eq : ∀ index, (ofFrame index).frame = index % frameCount
  monotone : ∀ left right : PhysicalAddress,
    left.value ≤ right.value → left.frame ≤ right.frame
  same_iff : ∀ left right : PhysicalAddress,
    left.frame = right.frame ↔ left.alignDown = right.alignDown

theorem ofFrame_frame (address : PhysicalAddress) :
    ofFrame address.frame = address.alignDown := by
  apply eq_of_toNat_eq
  rw [toNat_ofFrame_frame, toNat_alignDown]
  rfl

/-- The start of a frame and the distance from it sum up to the address. -/
theorem alignDown_add_offset (profile : Profile) (address : Address space) :
    address.alignDown.add profile address.offset = .ok address := by
  have parts :
      address.alignDown.value.toNat + address.offset.toNat =
        address.value.toNat := by
    rw [toNat_alignDown, toNat_offset]
    exact Nat.div_add_mod' address.value.toNat frameSize
  have summed :
      profile.add address.alignDown.value.toNat address.offset.toNat =
        .ok address.value.toNat := by
    rw [profile.add_of_lt (parts ▸ address.value.toNat_lt), parts]
  rw [add, Profile.addWord, summed]
  simp only [Except.map, UInt64.ofNat_toNat]

theorem isAligned_iff (address : Address space) :
    address.isAligned = true ↔ address.alignDown = address := by
  have start := toNat_alignDown address
  rw [isAligned, beq_iff_eq, ← UInt64.toNat_inj, toNat_offset,
    UInt64.toNat_zero]
  constructor
  · intro aligned
    apply eq_of_toNat_eq
    rw [start, Nat.div_mul_cancel (Nat.dvd_of_mod_eq_zero aligned)]
  · intro same
    rw [same] at start
    rw [start]
    exact Nat.mul_mod_left _ _

theorem decomposes (address : PhysicalAddress) : Decomposes address where
  frame_eq := (toNat_shift address).symm
  rounded := by
    intro profile
    have asserted : isPowerOfTwo 4096 = true :=
      isPowerOfTwo_two_pow (by decide : 12 < 64)
    rw [BootMemory.alignDown, asserted, Profile.assert_true]
    rfl
  start_eq := ofFrame_frame address
  sum_eq := fun profile => alignDown_add_offset profile address
  offset_lt := by
    rw [toNat_offset]
    exact Nat.mod_lt _ (by decide)
  aligned_iff := isAligned_iff address

theorem numbersFrames : NumbersFrames where
  start_eq := ofFrame_eq_shift
  number_eq := frame_ofFrame
  monotone := by
    intro left right ordered
    exact Nat.div_le_div_right (UInt64.le_iff_toNat_le.mp ordered)
  same_iff := by
    intro left right
    rw [← ofFrame_frame, ← ofFrame_frame]
    constructor
    · exact congrArg ofFrame
    · intro same
      rw [← frame_ofFrame_of_lt left.frame_lt, same,
        frame_ofFrame_of_lt right.frame_lt]

/--
Every address is the start of its frame and a distance within it, whichever way
the frame is told, and frame numbers modulo `frameCount` are frames.
-/
theorem frame_decomposition :
    (∀ address : PhysicalAddress, Decomposes address) ∧ NumbersFrames :=
  ⟨decomposes, numbersFrames⟩

end BootMemory.Address

namespace BootMemory.Sample

open Address

/-- The last address, and a frame number that has lost its highest bit. -/
theorem last_address_decomposition :
    Decomposes ⟨0xffffffffffffffff⟩ ∧
      (⟨0xffffffffffffffff⟩ : PhysicalAddress).frame = frameCount - 1 ∧
        (ofFrame (frameCount + 5)).frame = 5 := by
  rcases frame_decomposition with ⟨whole, numbers⟩
  exact ⟨whole _, rfl, numbers.number_eq (frameCount + 5)⟩

end BootMemory.Sample
