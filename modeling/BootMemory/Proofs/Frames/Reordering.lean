import BootMemory.Proofs.Frames.Completeness
import BootMemory.Proofs.Frames.Outcomes

/-!
# The order of the memory map

A boot loader may list the regions of memory in any order.  The census is a fold
that takes one region into account at a time, and taking two of them in either
order gives the same totals (`Census.tally_right_comm`); whether a region can hold
the bitmap is asked of each region on its own.

So a reordered map is refused for the same reason, or accepted with the same
books, although another region may hold the bitmap then.
-/

namespace BootMemory

attribute [ext] Census

namespace Census

/-! ## The census of a reordered map -/

theorem lower_right_comm (lowest : Option Nat) (left right : Region) :
    lower (lower lowest left) right = lower (lower lowest right) left := by
  cases lowest with
  | none => simp [lower, Nat.min_comm]
  | some bound => simp [lower, Nat.min_comm left.base.toNat]

/-- Two regions are taken into account in either order. -/
theorem tally_right_comm (census : Census) (left right : Region) :
    (census.tally left).tally right = (census.tally right).tally left := by
  ext1
  · simp only [highestPhysical_tally, Nat.max_right_comm]
  · simp only [highestRam_tally]
    split <;> split <;> simp only [Nat.max_right_comm]
  · simp only [highestUsable_tally]
    split <;> split <;> simp only [Nat.max_right_comm]
  · simp only [lowestUsable_tally]
    split <;> split <;> simp only [lower_right_comm _ left right]
  · simp only [presentPages_tally, Nat.add_right_comm]
  · simp only [occupiedPages_tally, Nat.add_right_comm]

instance : RightCommutative tally := ⟨tally_right_comm⟩

theorem ofMap_perm {map other : List Region} (same : map.Perm other) :
    ofMap map = ofMap other :=
  same.foldl_eq empty

end Census

/-! ## What else a set-up asks of the map -/

section Reordered

variable {map other : List Region} {offset : UInt64}

theorem SoundMap.perm (sound : SoundMap map) (same : map.Perm other) :
    SoundMap other where
  separate := (same.pairwise_iff Region.Separate.symm).mp sound.separate
  low := fun region member => sound.low region (same.mem_iff.mpr member)

theorem DirectMap.Reaches.perm
    (reaches : DirectMap.Reaches ⟨offset⟩ map) (same : map.Perm other) :
    DirectMap.Reaches ⟨offset⟩ other :=
  fun region member => reaches region (same.mem_iff.mpr member)

namespace Boot

theorem bitmapFrames_perm (same : map.Perm other) :
    bitmapFrames map = bitmapFrames other := by
  unfold bitmapFrames
  rw [Census.ofMap_perm same]

/-- Neither map has a region that can hold the bitmap, or both have one. -/
theorem unhosted_perm (sound : SoundMap map) (same : map.Perm other) :
    Host.find (bitmapFrames map * frameSize)
        (map.map Region.pastFrameZero) = none ↔
      Host.find (bitmapFrames other * frameSize)
        (other.map Region.pastFrameZero) = none := by
  rw [bitmapFrames_perm same, Host.find_pastFrameZero_eq_none_iff sound,
    Host.find_pastFrameZero_eq_none_iff (sound.perm same)]
  exact forall_congr' fun region => imp_congr_left same.mem_iff

/-- The totals do not depend on the order, nor on the region with the bitmap. -/
theorem stats_founder_perm (same : map.Perm other) (host twin : Host) :
    (founder offset map host).stats = (founder offset other twin).stats := by
  have census := Census.ofMap_perm same
  have ram := congrArg Census.presentPages census
  have occupied := congrArg Census.occupiedPages census
  rw [Census.presentPages_ofMap, Census.presentPages_ofMap] at ram
  rw [Census.occupiedPages_ofMap, Census.occupiedPages_ofMap] at occupied
  simp only [Allocator.stats, founder, founded, census, ram, occupied,
    bitmapFrames_perm same, same.countP_eq]

variable {boot twin : Boot}

/--
Set-ups on two orders of a sound map that the direct map reaches both return, with
the same refusal or with allocators of the same totals.
-/
theorem setUp_perm
    (profile : Profile) (sound : SoundMap boot.map)
    (reaches : DirectMap.Reaches ⟨offset⟩ boot.map)
    (same : boot.map.Perm twin.map) :
    ∃ result other middle later,
      setUp profile (.direct ⟨offset⟩) boot = .ok result middle ∧
        setUp profile (.direct ⟨offset⟩) twin = .ok other later ∧
          result.map Allocator.stats = other.map Allocator.stats := by
  have twinAccount := sound.perm same
  have offers := same.any_eq (f := Region.isOffered)
  cases offered : boot.map.any Region.isOffered with
  | false =>
      rw [offered] at offers
      exact
        ⟨_, _, _, _, setUp_of_none profile _ sound offered,
          setUp_of_none profile _ twinAccount offers.symm, rfl⟩
  | true =>
      rw [offered] at offers
      have unhosted := unhosted_perm sound same
      cases found :
          Host.find (bitmapFrames boot.map * frameSize)
            (boot.map.map Region.pastFrameZero) with
      | none =>
          refine
            ⟨_, _, _, _, setUp_of_unhosted profile _ sound offered found,
              setUp_of_unhosted profile _ twinAccount offers.symm
                (unhosted.mp found), ?_⟩
          rw [bitmapFrames_perm same]
      | some host =>
          rw [found] at unhosted
          rcases Option.ne_none_iff_exists'.mp (mt unhosted.mpr nofun) with
            ⟨otherHost, otherFound⟩
          rcases setUp_of_found profile sound reaches offered found with
            ⟨log, ran⟩
          rcases setUp_of_found profile twinAccount (reaches.perm same)
            offers.symm otherFound with ⟨otherLog, otherRan⟩
          refine ⟨_, _, _, _, ran, otherRan, ?_⟩
          exact congrArg Except.ok (stats_founder_perm same host otherHost)

end Boot

end Reordered

namespace Sample

/-- In reverse the bitmap is at the front of what was the last region. -/
def reversedHost : Host :=
  ⟨[], ⟨16384, 8192, .usable⟩,
    [⟨12288, 4096, .bootloaderReclaimable⟩, ⟨4096, 8192, .usable⟩]⟩

theorem reversedMap_found :
    Host.find (Boot.bitmapFrames gapMap.reverse * frameSize)
      (gapMap.reverse.map Region.pastFrameZero) = some reversedHost := by
  have frames : Boot.bitmapFrames gapMap.reverse = 1 := by decide
  rw [frames]
  rfl

/-- The sample in reverse holds the bitmap elsewhere and has the same totals. -/
theorem reversed_setUp_perm :
    SoundMap gapMap ∧ DirectMap.Reaches ⟨offset⟩ gapMap ∧
      gapMap.Perm gapMap.reverse ∧
        ∃ allocator other middle later,
          Boot.setUp .debug (.direct ⟨offset⟩) ⟨gapMap, Memory.zero, []⟩ =
              .ok (.ok allocator) middle ∧
            Boot.setUp .debug (.direct ⟨offset⟩)
                ⟨gapMap.reverse, Memory.zero, []⟩ =
              .ok (.ok other) later ∧
            allocator.storage.base ≠ other.storage.base ∧
              allocator.stats = other.stats := by
  have same : gapMap.Perm gapMap.reverse := (List.reverse_perm gapMap).symm
  rcases exists_gap_setUp .debug Memory.zero with ⟨middle, ran⟩
  rcases @Boot.setUp_of_found offset ⟨gapMap.reverse, Memory.zero, []⟩
    reversedHost .debug (gapMap_sound.perm same) (gapMap_reaches.perm same)
    (by decide) reversedMap_found with ⟨log, otherRan⟩
  rcases @Boot.setUp_perm offset ⟨gapMap, Memory.zero, []⟩
    ⟨gapMap.reverse, Memory.zero, []⟩ .debug gapMap_sound gapMap_reaches same
    with ⟨result, other, _, _, first, second, totals⟩
  rw [ran] at first
  rw [otherRan] at second
  cases first
  cases second
  exact
    ⟨gapMap_sound, gapMap_reaches, same, _, _, _, _, ran, otherRan, by decide,
      Except.ok.inj totals⟩

end Sample

end BootMemory
