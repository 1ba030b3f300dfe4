import BootMemory.Proofs.Alignment
import BootMemory.Proofs.Frames.Adjust
import BootMemory.Proofs.Frames.Machine

/-!
# Setting up the allocator on a sound map

On a sound map whose memory the direct map reaches, setting up the allocator
meets no fault.  `Boot.setUp_outcome` tells its three outcomes apart: there is
no usable memory, no usable region can hold the bitmap, or the allocator is
`Boot.founder` and memory holds the bitmap `Boot.opened`.

Of other maps a set-up may succeed as well.  `Boot.Founding` names the steps that
it went through then.
-/

namespace BootMemory

/-- The direct map reaches all memory of a map, and above all of it. -/
def DirectMap.Reaches (map : DirectMap) (regions : List Region) : Prop :=
  ∀ region ∈ regions, region.isPresent = true →
    region.top ≤ map.offset.toNat ∧ map.offset.toNat + region.top ≤ wordCount

/-! ## The size of the bitmap -/

/-- The frames that hold a bit for every frame below the end of memory. -/
def bitmapFramesFor (highestRam : Nat) : Nat :=
  max 1 (framesFor (Bitmap.bytesFor (highestRam / frameSize)))

theorem bitmapFramesFor_pos (highestRam : Nat) :
    0 < bitmapFramesFor highestRam :=
  Nat.le_max_left _ _

/-- The bitmap has a bit for every frame below the end of memory. -/
theorem le_bits_of_bitmapFramesFor (highestRam : Nat) :
    highestRam / frameSize ≤ bitmapFramesFor highestRam * frameSize * 8 := by
  simp only [bitmapFramesFor, framesFor, Bitmap.bytesFor, frameSize]
  omega

theorem bitmapFramesFor_le
    {highestRam : Nat} (low : highestRam ≤ physicalLimit) :
    bitmapFramesFor highestRam ≤ 2 ^ 25 := by
  simp only [bitmapFramesFor, framesFor, Bitmap.bytesFor, frameSize,
    physicalLimit] at low ⊢
  omega

/-- The size of the bitmap is computed without overflow, whatever the end. -/
theorem bitmapBytesFor_of_lt
    (profile : Profile) {highestRam : Nat} (small : highestRam < wordCount) :
    bitmapBytesFor profile highestRam =
      .ok (bitmapFramesFor highestRam * frameSize) := by
  have value :
      (UInt64.ofNat (Bitmap.bytesFor (highestRam / frameSize))).toNat =
        Bitmap.bytesFor (highestRam / frameSize) := by
    simp only [UInt64.toNat_ofNat', Bitmap.bytesFor, frameSize, wordCount] at small ⊢
    omega
  have aligned :=
    alignUp_two_pow profile
      (UInt64.ofNat (Bitmap.bytesFor (highestRam / frameSize)))
      (by decide : 12 < 64)
      (by
        rw [value]
        simp only [Bitmap.bytesFor, frameSize, wordCount] at small ⊢
        omega)
  rw [value] at aligned
  have rounded :
      alignUp profile
          (UInt64.ofNat (Bitmap.bytesFor (highestRam / frameSize))) 4096 =
        .ok
          (UInt64.ofNat
            (framesFor (Bitmap.bytesFor (highestRam / frameSize)) *
              frameSize)) :=
    aligned
  have wide :
      (UInt64.ofNat
          (framesFor (Bitmap.bytesFor (highestRam / frameSize)) *
            frameSize)).toNat =
        framesFor (Bitmap.bytesFor (highestRam / frameSize)) * frameSize := by
    simp only [UInt64.toNat_ofNat', framesFor, Bitmap.bytesFor, frameSize,
      wordCount] at small ⊢
    omega
  simp only [bitmapBytesFor, rounded, bind, Except.bind, pure, Except.pure,
    Except.ok.injEq, ← UInt64.toNat_inj, wide, UInt64.toNat_zero]
  unfold bitmapFramesFor
  split
  · rename_i none
    simp only [frameSize] at none ⊢
    omega
  · rename_i some
    simp only [frameSize] at some ⊢
    omega

theorem bitmapBytesFor_of_le
    (profile : Profile) {highestRam : Nat} (low : highestRam ≤ physicalLimit) :
    bitmapBytesFor profile highestRam =
      .ok (bitmapFramesFor highestRam * frameSize) :=
  bitmapBytesFor_of_lt profile (lt_wordCount_of_le low)

/-! ## Clearing the bits of usable frames -/

namespace Bitmap

/-- The bitmap with the bits of all frames in usable regions cleared. -/
def offer (bitmap : Bitmap) : List Region → Bitmap
  | [] => bitmap
  | region :: map =>
      if region.isUsable then
        (bitmap.putRange false (framesFor region.base.toNat)
          (region.top / frameSize - framesFor region.base.toNat)).offer map
      else
        bitmap.offer map

@[simp]
theorem bits_offer (bitmap : Bitmap) (map : List Region) :
    (bitmap.offer map).bits = bitmap.bits := by
  induction map generalizing bitmap with
  | nil => rfl
  | cons region map inductionHypothesis =>
      unfold offer
      split <;> simp [inductionHypothesis]

@[simp]
theorem size_bytes_offer (bitmap : Bitmap) (map : List Region) :
    (bitmap.offer map).bytes.size = bitmap.bytes.size := by
  induction map generalizing bitmap with
  | nil => rfl
  | cons region map inductionHypothesis =>
      unfold offer
      split <;> simp [inductionHypothesis]

/-- The frames of a region end inside a bitmap that has a bit for each. -/
theorem frames_stop_le
    {bitmap : Bitmap} {region : Region}
    (inside : ∀ frame, region.HoldsFrame frame → frame < bitmap.bits)
    (nonempty : framesFor region.base.toNat < region.top / frameSize) :
    region.top / frameSize ≤ bitmap.bits := by
  have last : region.HoldsFrame (region.top / frameSize - 1) := by
    rw [← Region.mem_frames, Region.frames, Finset.mem_Ico]
    omega
  have bound := inside _ last
  omega

theorem bit_putRange_frames
    (bitmap : Bitmap) {region : Region}
    (inside : ∀ frame, region.HoldsFrame frame → frame < bitmap.bits)
    (frame : Nat) :
    (bitmap.putRange false (framesFor region.base.toNat)
        (region.top / frameSize - framesFor region.base.toNat)).bit frame =
          false ↔
      bitmap.bit frame = false ∨ region.HoldsFrame frame := by
  rw [← Region.mem_frames, Region.frames, Finset.mem_Ico]
  by_cases nonempty : framesFor region.base.toNat < region.top / frameSize
  · have last := frames_stop_le inside nonempty
    have stop :
        framesFor region.base.toNat +
            (region.top / frameSize - framesFor region.base.toNat) =
          region.top / frameSize := by
      omega
    rw [bit_putRange bitmap false (by omega), stop]
    split
    · rename_i member
      simp [member]
    · rename_i outside
      simp [outside]
  · have nothing :
        region.top / frameSize - framesFor region.base.toNat = 0 := by
      omega
    rw [nothing, putRange]
    constructor
    · exact Or.inl
    · rintro (clear | ⟨lower, upper⟩)
      · exact clear
      · omega

/-- All usable frames of a map have a bit. -/
def Covers (bitmap : Bitmap) (map : List Region) : Prop :=
  ∀ region ∈ map, region.isUsable = true →
    ∀ frame, region.HoldsFrame frame → frame < bitmap.bits

theorem Covers.tail
    {bitmap : Bitmap} {region : Region} {map : List Region}
    (covers : bitmap.Covers (region :: map)) : bitmap.Covers map :=
  fun later member => covers later (List.mem_cons_of_mem _ member)

theorem bit_offer
    {map : List Region} {bitmap : Bitmap} (covers : bitmap.Covers map)
    (frame : Nat) :
    (bitmap.offer map).bit frame = false ↔
      bitmap.bit frame = false ∨
        ∃ region ∈ map, region.isUsable = true ∧
          region.HoldsFrame frame := by
  induction map generalizing bitmap with
  | nil => simp [offer]
  | cons region map inductionHypothesis =>
      unfold offer
      cases usable : region.isUsable with
      | true =>
          have inside := covers region (by simp) usable
          have rest :
              (bitmap.putRange false (framesFor region.base.toNat)
                (region.top / frameSize -
                  framesFor region.base.toNat)).Covers map := by
            intro later member laterUsable other holds
            rw [bits_putRange]
            exact covers.tail later member laterUsable other holds
          rw [if_pos rfl, inductionHypothesis rest,
            bit_putRange_frames bitmap inside]
          simp [usable, or_assoc]
      | false =>
          simp only [Bool.false_eq_true, if_false]
          rw [inductionHypothesis covers.tail]
          simp [usable]

theorem writeRange_self
    (profile : Profile) (value : Bool) (bitmap : Bitmap) (start : Nat) :
    writeRange profile value start start bitmap = .ok () bitmap := by
  have visits : bitmap.visited start start = 0 := by
    unfold visited
    omega
  rw [writeRange, visits]
  rfl

theorem clearRange_frames
    (profile : Profile) {bitmap : Bitmap} {region : Region}
    (inside : ∀ frame, region.HoldsFrame frame → frame < bitmap.bits) :
    clearRange profile (framesFor region.base.toNat)
        (max (framesFor region.base.toNat) (region.top / frameSize)) bitmap =
      .ok ()
        (bitmap.putRange false (framesFor region.base.toNat)
          (region.top / frameSize - framesFor region.base.toNat)) := by
  by_cases nonempty : framesFor region.base.toNat < region.top / frameSize
  · rw [Nat.max_eq_right (by omega)]
    exact
      writeRange_of_le profile false (by omega)
        (frames_stop_le inside nonempty)
  · have nothing :
        region.top / frameSize - framesFor region.base.toNat = 0 := by
      omega
    rw [Nat.max_eq_left (by omega), nothing]
    exact writeRange_self profile false bitmap _

theorem clearUsable_of_low
    (profile : Profile) {map : List Region} {bitmap : Bitmap}
    (low : ∀ region ∈ map, region.top ≤ physicalLimit)
    (covers : bitmap.Covers map) :
    clearUsable profile map bitmap = .ok () (bitmap.offer map) := by
  induction map generalizing bitmap with
  | nil => rfl
  | cons region map inductionHypothesis =>
      have headLow := low region (by simp)
      have tailLow : ∀ later ∈ map, later.top ≤ physicalLimit := by
        intro later member
        exact low later (List.mem_cons_of_mem _ member)
      unfold clearUsable offer
      cases usable : region.isUsable with
      | true =>
          have span := Region.wholeFrames_of_le profile headLow
          have first :
              framesFor region.base.toNat * frameSize / frameSize =
                framesFor region.base.toNat :=
            Nat.mul_div_cancel _ (by decide)
          have stop :
              max (framesFor region.base.toNat * frameSize)
                    (region.top / frameSize * frameSize) / frameSize =
                max (framesFor region.base.toNat)
                  (region.top / frameSize) := by
            rw [Nat.mul_max_mul_right]
            exact Nat.mul_div_cancel _ (by decide)
          have cleared :=
            clearRange_frames profile (covers region (by simp) usable)
          rw [if_pos rfl, if_pos rfl]
          dsimp only
          rw [Action.bind_lift_of_ok span]
          dsimp only
          rw [first, stop, Action.bind_of_ok cleared]
          apply inductionHypothesis tailLow
          intro later member laterUsable frame holds
          rw [bits_putRange]
          exact covers.tail later member laterUsable frame holds
      | false =>
          simp only [Bool.false_eq_true, if_false]
          exact inductionHypothesis tailLow covers.tail

end Bitmap

/-! ## The steps of setting up -/

namespace Stats

/-- Totals whose bytes stay inside the word have a summary. -/
theorem exists_display
    (profile : Profile) {stats : Stats}
    (total : stats.totalPages * frameSize < wordCount)
    (usable : stats.usablePages * frameSize < wordCount)
    (used : stats.usedPages * frameSize < wordCount) :
    ∃ line, stats.display profile = .ok line := by
  have free : stats.freePages * frameSize < wordCount := by
    refine Nat.lt_of_le_of_lt ?_ usable
    exact Nat.mul_le_mul_right _ (Nat.sub_le _ _)
  simp only [display, totalMib, usableMib, usedMib, freeMib, pagesToMib,
    profile.mul_of_lt total, profile.mul_of_lt usable,
    profile.mul_of_lt used, profile.mul_of_lt free, Except.map, bind,
    Except.bind, pure, Except.pure]
  exact ⟨_, rfl⟩

end Stats

namespace Boot

variable {offset : UInt64} {boot : Boot}

/-- The frames of the bitmap for a map. -/
def bitmapFrames (map : List Region) : Nat :=
  bitmapFramesFor (Census.ofMap map).highestRam

/-- The bitmap for a map, at an address that a mapper leads to. -/
def siteAt (address : VirtualAddress) (map : List Region) : Storage where
  base := address
  length := bitmapFrames map * frameSize
  bits := bitmapFrames map * frameSize * 8
  fits := by omega

/-- Where the direct map puts the bitmap. -/
def site (offset : UInt64) (map : List Region) (host : Host) : Storage :=
  siteAt ⟨Machine.byteAt offset host.region.base.toNat⟩ map

/-- The map with the bitmap carved out. -/
def remaining (map : List Region) (host : Host) : List Region :=
  host.mapWith (host.region.dropFront (bitmapFrames map * frameSize))

/-- A bitmap whose clear bits are the usable frames, frame zero excepted. -/
def opened (bitmap : Bitmap) (map : List Region) : Bitmap :=
  ((bitmap.fill true).offer map).put 0 true

@[simp]
theorem bits_opened (bitmap : Bitmap) (map : List Region) :
    (opened bitmap map).bits = bitmap.bits := by
  simp [opened]

@[simp]
theorem size_bytes_opened (bitmap : Bitmap) (map : List Region) :
    (opened bitmap map).bytes.size = bitmap.bytes.size := by
  simp [opened]

/--
The books of the allocator when it starts, for any mapper and the address of the
bitmap that it leads to.
-/
def founded
    (mapper : Mapper) (address : VirtualAddress) (map : List Region) :
    Allocator where
  mapper
  storage := siteAt address map
  highestPhysical := ⟨UInt64.ofNat (Census.ofMap map).highestPhysical⟩
  highestUsable := ⟨UInt64.ofNat (Census.ofMap map).highestUsable⟩
  lowestUsable :=
    ⟨UInt64.ofNat
      (max ((Census.ofMap map).lowestUsable.getD 0) frameSize)⟩
  totalPages := Region.pagesWhere Region.isRam map
  usablePages := Region.pagesWhere Region.isRam map
  usedPages :=
    Region.pagesWhere Region.isOccupied map +
      map.countP Region.holdsFrameZero + bitmapFrames map
  frameLimit := (Census.ofMap map).highestRam / frameSize
  cursor := 0

/-- The books of the allocator when it starts on the direct map. -/
def founder (offset : UInt64) (map : List Region) (host : Host) : Allocator :=
  founded (.direct ⟨offset⟩)
    ⟨Machine.byteAt offset host.region.base.toNat⟩ map

@[simp]
theorem storage_founder
    (offset : UInt64) (map : List Region) (host : Host) :
    (founder offset map host).storage = site offset map host := rfl

theorem bitmapBytes_pos (map : List Region) :
    0 < bitmapFrames map * frameSize :=
  Nat.mul_pos (bitmapFramesFor_pos _) (by decide)

/-- The event of taking frame zero out of a map, if it was there. -/
def frameZeroEvents (map : List Region) : Log :=
  if 0 < map.countP Region.holdsFrameZero then [.frameZeroReserved] else []

theorem reserveFrameZero_of_low
    (profile : Profile)
    (low : ∀ region ∈ boot.map, region.top < wordCount) :
    reserveFrameZero profile boot =
      .ok (boot.map.countP Region.holdsFrameZero)
        { boot with
          map := boot.map.map Region.pastFrameZero
          log := boot.log ++ frameZeroEvents boot.map } := by
  have moved := Region.allOffFrameZero_of_low profile low
  unfold reserveFrameZero
  rw [Action.bind_get, Action.bind_lift_of_ok moved]
  dsimp only
  rw [Action.bind_set]
  unfold frameZeroEvents
  split
  · rfl
  · simp only [List.append_nil]
    rfl

/-- The direct map leads to the place of the bitmap. -/
theorem toVirtual_host
    (profile : Profile) {host : Host}
    (low : host.region.top ≤ offset.toNat)
    (room : offset.toNat + host.region.top ≤ wordCount)
    (positive : 0 < host.region.length.toNat) :
    DirectMap.toVirtual profile ⟨offset⟩ ⟨host.region.base⟩ =
      .ok ⟨UInt64.ofNat (host.region.base.toNat + offset.toNat)⟩ := by
  apply DirectMap.toVirtual_of_lt
  · simp only [Region.top] at low ⊢
    omega
  · simp only [Region.top] at room ⊢
    omega

/-- The bitmap is placed wherever the mapper leads to. -/
theorem placeBitmap_of_reached
    (profile : Profile) (boot : Boot) {mapper : Mapper} {map : List Region}
    {host : Host} {address : VirtualAddress}
    (low : host.region.top < wordCount) (small : bitmapFrames map ≤ 2 ^ 25)
    (reached : mapper.reach profile ⟨host.region.base⟩ = .ok address) :
    placeBitmap profile mapper (bitmapFrames map * frameSize) host boot =
      .ok (.ok (siteAt address map))
        { boot with
          map := remaining map host
          memory := (siteAt address map).fill boot.memory true } := by
  have bits :
      profile.mul (bitmapFrames map * frameSize) 8 =
        .ok (bitmapFrames map * frameSize * 8) := by
    apply profile.mul_of_lt
    simp only [frameSize, wordCount]
    omega
  have bound :
      Storage.bind address (bitmapFrames map * frameSize)
          (bitmapFrames map * frameSize * 8) =
        .ok (siteAt address map) := by
    have enough :
        Bitmap.bytesFor (bitmapFrames map * frameSize * 8) ≤
          bitmapFrames map * frameSize := by
      rw [Bitmap.bytesFor_le_iff]
      omega
    rw [Storage.bind, dif_pos enough]
    rfl
  have bytes :
      (UInt64.ofNat (bitmapFrames map * frameSize)).toNat =
        bitmapFrames map * frameSize := by
    rw [UInt64.toNat_ofNat']
    simp only [frameSize]
    omega
  have carved :=
    Region.consumeFront_of_lt profile low
      (UInt64.ofNat (bitmapFrames map * frameSize))
  rw [bytes] at carved
  unfold placeBitmap
  rw [Action.bind_lift_of_ok reached, Action.bind_lift_of_ok bits, bound]
  dsimp only
  rw [Action.bind_modify, Action.bind_lift_of_ok carved]
  rfl

theorem onBitmap_of_ok
    {Value : Type} {storage : Storage} {action : Action Bitmap Value}
    {value : Value} {bitmap : Bitmap}
    (ran : action (storage.load boot.memory) = .ok value bitmap) :
    onMemory (storage.onBitmap action) boot =
      .ok value
        { boot with memory := storage.store bitmap boot.memory } := by
  have stored :
      storage.onBitmap action boot.memory =
        .ok value (storage.store bitmap boot.memory) :=
    Action.focus_of_ok ran
  exact Action.focus_of_ok stored

/-- Marking the free frames opens the bitmap that memory holds. -/
theorem markFree_of_low
    (profile : Profile) (boot : Boot) {storage : Storage} {memory : Memory}
    (filled : boot.memory = storage.fill memory true)
    (low : ∀ region ∈ boot.map, region.top ≤ physicalLimit)
    (covers : (storage.load memory).Covers boot.map)
    (positive : 0 < storage.bits) (small : storage.length ≤ wordCount) :
    markFree profile storage boot =
      .ok ()
        { boot with
          memory :=
            storage.store (opened (storage.load memory) boot.map)
              memory } := by
  have blank :
      storage.load boot.memory = (storage.load memory).fill true := by
    rw [filled]
    exact Storage.load_store memory (by simp) (by simp) small
  have cleared :
      Bitmap.clearUsable profile boot.map (storage.load boot.memory) =
        .ok () (((storage.load memory).fill true).offer boot.map) := by
    rw [blank]
    exact Bitmap.clearUsable_of_low profile low covers
  have reloaded :
      storage.load
          (storage.store (((storage.load memory).fill true).offer boot.map)
            boot.memory) =
        ((storage.load memory).fill true).offer boot.map :=
    Storage.load_store boot.memory (by simp) (by simp) small
  have reserved :
      Bitmap.set profile 0 (((storage.load memory).fill true).offer boot.map) =
        .ok () (opened (storage.load memory) boot.map) :=
    Bitmap.write_of_lt profile true (by simpa using positive)
  rw [← reloaded] at reserved
  have second :
      onMemory (storage.onBitmap (Bitmap.set profile 0))
          { boot with
            memory :=
              storage.store (((storage.load memory).fill true).offer boot.map)
                boot.memory } =
        .ok ()
          { boot with
            memory :=
              storage.store (opened (storage.load memory) boot.map)
                (storage.store
                  (((storage.load memory).fill true).offer boot.map)
                  boot.memory) } :=
    onBitmap_of_ok reserved
  have merged :
      storage.store (opened (storage.load memory) boot.map)
          (storage.store (((storage.load memory).fill true).offer boot.map)
            boot.memory) =
        storage.store (opened (storage.load memory) boot.map) memory := by
    rw [Storage.store_store boot.memory (by simp), filled, Storage.fill,
      Storage.store_store memory (by simp)]
  unfold markFree
  rw [Action.bind_get, Action.bind_of_ok (onBitmap_of_ok cleared), second,
    merged]

theorem info_of_small
    (profile : Profile) (boot : Boot) {allocator : Allocator}
    (total : allocator.totalPages * frameSize < wordCount)
    (usable : allocator.usablePages * frameSize < wordCount)
    (used : allocator.usedPages * frameSize < wordCount) :
    ∃ line,
      withAllocator allocator (Machine.info profile) boot =
        .ok () { boot with log := boot.log ++ [.summary line] } := by
  have shown :
      ∃ line, allocator.stats.display profile = .ok line :=
    Stats.exists_display profile total usable used
  rcases shown with ⟨line, shown⟩
  refine ⟨line, ?_⟩
  have ran :
      Machine.info profile
          { allocator, memory := boot.memory, log := boot.log } =
        .ok ()
          { allocator
            memory := boot.memory
            log := boot.log ++ [.summary line] } := by
    unfold Machine.info
    rw [Action.bind_get]
    exact Action.bind_lift_of_ok shown
  simp only [withAllocator, Action.focus, ran]

/-! ## A set-up that succeeds -/

/-- The steps of a set-up that succeeds, and what each of them yields. -/
structure Founding
    (profile : Profile) (mapper : Mapper) (boot middle : Boot)
    (allocator : Allocator) where
  census : Census
  lowest : Nat
  reserved : Nat
  trimmed : Boot
  occupied : Nat
  bytes : Nat
  host : Host
  storage : Storage
  placed : Boot
  usedPages : Nat
  accessible : VirtualAddress
  marked : Boot
  took : Census.take profile boot.map = .ok census
  lowest_eq : census.lowestUsable = some lowest
  reserves : reserveFrameZero profile boot = .ok reserved trimmed
  counts : profile.add census.occupiedPages reserved = .ok occupied
  sizes : bitmapBytesFor profile census.highestRam = .ok bytes
  found : Host.find bytes trimmed.map = some host
  places :
    placeBitmap profile mapper bytes host trimmed = .ok (.ok storage) placed
  uses : profile.add occupied (bytes / frameSize) = .ok usedPages
  reaches : mapper.toVirtual profile ⟨host.region.base⟩ = .ok accessible
  marks :
    markFree profile storage
        { placed with
          log :=
            placed.log ++
              [.bitmapPlaced ⟨host.region.base⟩ accessible bytes
                storage.bits] } =
      .ok () marked
  reports :
    withAllocator allocator (Machine.info profile) marked = .ok () middle
  allocator_eq :
    allocator =
      { mapper
        storage
        highestPhysical := ⟨UInt64.ofNat census.highestPhysical⟩
        highestUsable := ⟨UInt64.ofNat census.highestUsable⟩
        lowestUsable := ⟨UInt64.ofNat (max lowest frameSize)⟩
        totalPages := census.presentPages
        usablePages := census.presentPages
        usedPages
        frameLimit := census.highestRam / frameSize
        cursor := 0 }

/-- A set-up that succeeds went through all of its steps. -/
theorem exists_founding
    {profile : Profile} {mapper : Mapper} {boot middle : Boot}
    {allocator : Allocator}
    (ran : setUp profile mapper boot = .ok (.ok allocator) middle) :
    Nonempty (Founding profile mapper boot middle allocator) := by
  unfold setUp at ran
  rw [Action.bind_get] at ran
  rcases Action.exists_of_bind_lift_ok ran with ⟨census, took, afterCensus⟩
  cases lowest_eq : census.lowestUsable with
  | none =>
      simp only [lowest_eq] at afterCensus
      cases afterCensus
  | some lowest =>
      simp only [lowest_eq] at afterCensus
      rcases Action.exists_of_bind_ok afterCensus with
        ⟨reserved, trimmed, reserves, afterReserve⟩
      rcases Action.exists_of_bind_lift_ok afterReserve with
        ⟨occupied, counts, afterOccupied⟩
      rcases Action.exists_of_bind_lift_ok afterOccupied with
        ⟨bytes, sizes, afterBytes⟩
      rw [Action.bind_get] at afterBytes
      cases found : Host.find bytes trimmed.map with
      | none =>
          simp only [found] at afterBytes
          cases afterBytes
      | some host =>
          simp only [found] at afterBytes
          rcases Action.exists_of_bind_ok afterBytes with
            ⟨result, placed, places, afterPlace⟩
          cases result with
          | error refusal => cases afterPlace
          | ok storage =>
              dsimp only at afterPlace
              rcases Action.exists_of_bind_lift_ok afterPlace with
                ⟨usedPages, uses, afterUsed⟩
              rcases Action.exists_of_bind_lift_ok afterUsed with
                ⟨accessible, reaches, afterAccess⟩
              unfold record at afterAccess
              rw [Action.bind_modify] at afterAccess
              rcases Action.exists_of_bind_ok afterAccess with
                ⟨⟨⟩, marked, marks, afterMark⟩
              rcases Action.exists_of_bind_ok afterMark with
                ⟨⟨⟩, last, reports, returned⟩
              cases returned
              exact
                ⟨{ census, lowest, reserved, trimmed, occupied, bytes, host,
                   storage, placed, usedPages, accessible, marked, took,
                   lowest_eq, reserves, counts, sizes, found, places, uses,
                   reaches, marks, reports, allocator_eq := rfl }⟩

/-! ## The outcomes of setting up -/

theorem highestRam_le_of_low
    {map : List Region} (low : ∀ region ∈ map, region.top ≤ physicalLimit) :
    (Census.ofMap map).highestRam ≤ physicalLimit := by
  apply Census.highestRam_le
  intro region member _
  rw [Region.stop_eq_top (low region member)]
  exact low region member

theorem highestRam_le_of_sound
    {map : List Region} (sound : SoundMap map) :
    (Census.ofMap map).highestRam ≤ physicalLimit :=
  highestRam_le_of_low sound.low

theorem bitmapFrames_le
    {map : List Region} (sound : SoundMap map) :
    bitmapFrames map ≤ 2 ^ 25 :=
  bitmapFramesFor_le (highestRam_le_of_sound sound)

theorem length_siteAt_le
    {map : List Region} (sound : SoundMap map) (address : VirtualAddress) :
    (siteAt address map).length ≤ wordCount := by
  have frames := bitmapFrames_le sound
  simp only [siteAt, frameSize, wordCount]
  omega

theorem occupied_le
    {map : List Region} (sound : SoundMap map) :
    Region.pagesWhere Region.isOccupied map +
        map.countP Region.holdsFrameZero ≤ 2 ^ 40 := by
  have total := sound.pagesWhere_le Region.isRam
  have kinds := Region.pagesWhere_isRam map
  have zero :=
    Region.pagesWhere_pastFrameZero fun region (member : region ∈ map) =>
      sound.top_lt member
  omega

/-- A frame of memory lies below the end of memory. -/
theorem frame_lt_limit_of_top_lt
    {map : List Region} {region : Region} (member : region ∈ map)
    (ram : region.isRam = true) (low : region.top < wordCount) {frame : Nat}
    (holds : region.HoldsFrame frame) :
    frame < (Census.ofMap map).highestRam / frameSize := by
  have present : region.isPresent = true :=
    Region.isPresent_iff.mpr ⟨ram, holds.length_ne_zero⟩
  have reach := Census.stop_le_highestRam member present
  have stop : region.stop = region.top := by
    unfold Region.stop Region.top at *
    omega
  rw [stop] at reach
  simp only [Region.HoldsFrame, frameSize] at holds ⊢
  omega

theorem frame_lt_limit_of_low
    {map : List Region} (low : ∀ region ∈ map, region.top ≤ physicalLimit)
    {region : Region} (member : region ∈ map) (ram : region.isRam = true)
    {frame : Nat} (holds : region.HoldsFrame frame) :
    frame < (Census.ofMap map).highestRam / frameSize :=
  frame_lt_limit_of_top_lt member ram
    (lt_wordCount_of_le (low region member)) holds

theorem frame_lt_limit
    {map : List Region} (sound : SoundMap map) {region : Region}
    (member : region ∈ map) (ram : region.isRam = true) {frame : Nat}
    (holds : region.HoldsFrame frame) :
    frame < (Census.ofMap map).highestRam / frameSize :=
  frame_lt_limit_of_low sound.low member ram holds

/-- The bitmap has a bit for every frame below the end of memory. -/
theorem limit_le_bits (map : List Region) :
    (Census.ofMap map).highestRam / frameSize ≤
      bitmapFrames map * frameSize * 8 :=
  le_bits_of_bitmapFramesFor _

theorem frame_lt_bits
    {map : List Region} (sound : SoundMap map) {region : Region}
    (member : region ∈ map) (ram : region.isRam = true) {frame : Nat}
    (holds : region.HoldsFrame frame) :
    frame < bitmapFrames map * frameSize * 8 :=
  Nat.lt_of_lt_of_le (frame_lt_limit sound member ram holds)
    (limit_le_bits map)

section Outcomes

variable {map : List Region} {host : Host}
  {before after : List Region} {origin : Region}

/-- The region that holds the bitmap is memory that the direct map reaches. -/
theorem host_reached
    (hosts :
      host.Hosts (bitmapFrames map * frameSize) map before after origin)
    (sound : SoundMap map) (reaches : DirectMap.Reaches ⟨offset⟩ map) :
    host.region.top ≤ offset.toNat ∧
      offset.toNat + host.region.top ≤ wordCount := by
  have nonempty := hosts.length_ne_zero sound (bitmapBytes_pos map)
  have present : origin.isPresent = true :=
    Region.isPresent_iff.mpr
      ⟨Region.isRam_of_isUsable hosts.usable, nonempty⟩
  rw [hosts.region_top sound]
  exact reaches origin hosts.origin_mem present

/-- The bitmap has a bit for every frame that is still offered. -/
theorem covers_remaining
    (hosts :
      host.Hosts (bitmapFrames map * frameSize) map before after origin)
    (sound : SoundMap map) {bitmap : Bitmap}
    (bits : bitmap.bits = bitmapFrames map * frameSize * 8) :
    bitmap.Covers (remaining map host) := by
  intro region member usable frame holds
  have offered :=
    (hosts.offers_iff sound (bitmapBytes_pos map) frame).mp
      ⟨region, member, usable, holds⟩
  rcases offered with ⟨-, ⟨original, inMap, originalUsable, within⟩, -⟩
  rw [bits]
  exact
    frame_lt_bits sound inMap (Region.isRam_of_isUsable originalUsable) within

theorem sound_remaining
    (hosts :
      host.Hosts (bitmapFrames map * frameSize) map before after origin)
    (sound : SoundMap map) :
    SoundMap (remaining map host) :=
  hosts.sound_carved sound

theorem reserveFrameZero_of_sound
    (profile : Profile) (sound : SoundMap boot.map) :
    reserveFrameZero profile boot =
      .ok (boot.map.countP Region.holdsFrameZero)
        { boot with
          map := boot.map.map Region.pastFrameZero
          log := boot.log ++ frameZeroEvents boot.map } :=
  reserveFrameZero_of_low profile fun _ member => sound.top_lt member

/-- The pages in use at boot, with frame zero, can be counted. -/
theorem add_reserved
    (profile : Profile) (sound : SoundMap map) :
    profile.add (Census.ofMap map).occupiedPages
        (map.countP Region.holdsFrameZero) =
      .ok
        (Region.pagesWhere Region.isOccupied map +
          map.countP Region.holdsFrameZero) := by
  have pages := occupied_le sound
  rw [Census.occupiedPages_ofMap]
  exact profile.add_of_lt (by simp only [wordCount]; omega)

/-- So can the frames of the bitmap beside them. -/
theorem add_bitmap
    (profile : Profile) (sound : SoundMap map) :
    profile.add
        (Region.pagesWhere Region.isOccupied map +
          map.countP Region.holdsFrameZero)
        (bitmapFrames map * frameSize / frameSize) =
      .ok
        (Region.pagesWhere Region.isOccupied map +
          map.countP Region.holdsFrameZero + bitmapFrames map) := by
  have pages := occupied_le sound
  have small := bitmapFrames_le sound
  rw [Nat.mul_div_cancel _ (by decide : 0 < frameSize)]
  exact profile.add_of_lt (by simp only [wordCount]; omega)

theorem bitmapBytesFor_of_sound
    (profile : Profile) (sound : SoundMap map) :
    bitmapBytesFor profile (Census.ofMap map).highestRam =
      .ok (bitmapFrames map * frameSize) :=
  bitmapBytesFor_of_le profile (highestRam_le_of_sound sound)

theorem exists_lowestUsable (offered : map.any Region.isOffered = true) :
    ∃ lowest, (Census.ofMap map).lowestUsable = some lowest := by
  rw [← Option.isSome_iff_exists, Census.lowestUsable_ofMap_isSome]
  exact offered

/-- The allocator can say what it starts with. -/
theorem info_founded
    (profile : Profile) (sound : SoundMap map) (mapper : Mapper)
    (address : VirtualAddress) (middle : Boot) :
    ∃ line,
      withAllocator (founded mapper address map) (Machine.info profile)
          middle =
        .ok () { middle with log := middle.log ++ [.summary line] } := by
  have pages := occupied_le sound
  have present := sound.pagesWhere_le Region.isRam
  have small := bitmapFrames_le sound
  apply info_of_small profile middle
  · simp only [founded, frameSize, wordCount]
    omega
  · simp only [founded, frameSize, wordCount]
    omega
  · simp only [founded, frameSize, wordCount]
    omega

/-- Without usable memory nothing but the log changes. -/
theorem setUp_of_none
    (profile : Profile) (mapper : Mapper) (sound : SoundMap boot.map)
    (lacking : boot.map.any Region.isOffered = false) :
    setUp profile mapper boot =
      .ok (.error .noUsableMemory)
        { boot with log := boot.log ++ [.noUsableMemory] } := by
  have census := Census.take_of_sound profile sound
  have lowest : (Census.ofMap boot.map).lowestUsable = none := by
    rw [← Option.not_isSome_iff_eq_none, Census.lowestUsable_ofMap_isSome,
      lacking]
    decide
  unfold setUp
  rw [Action.bind_get, Action.bind_lift_of_ok census]
  simp only [lowest]
  rfl

/-- Without a region for the bitmap the map is still moved off frame zero. -/
theorem setUp_of_unhosted
    (profile : Profile) (mapper : Mapper) (sound : SoundMap boot.map)
    (offered : boot.map.any Region.isOffered = true)
    (unhosted :
      Host.find (bitmapFrames boot.map * frameSize)
        (boot.map.map Region.pastFrameZero) = none) :
    setUp profile mapper boot =
      .ok (.error (.noBitmapRegion (bitmapFrames boot.map * frameSize)))
        { boot with
          map := boot.map.map Region.pastFrameZero
          log :=
            boot.log ++ frameZeroEvents boot.map ++
              [.noBitmapRegion (bitmapFrames boot.map * frameSize)] } := by
  have census := Census.take_of_sound profile sound
  rcases exists_lowestUsable offered with ⟨lowest, found⟩
  unfold setUp
  rw [Action.bind_get, Action.bind_lift_of_ok census]
  simp only [found]
  rw [Action.bind_of_ok (reserveFrameZero_of_sound profile sound),
    Action.bind_lift_of_ok (add_reserved profile sound),
    Action.bind_lift_of_ok (bitmapBytesFor_of_sound profile sound),
    Action.bind_get]
  simp only [unhosted]
  rfl

/-- With a region for the bitmap the allocator starts, if the mapper reaches it. -/
theorem setUp_of_reached
    (profile : Profile) {mapper : Mapper}
    {address accessible : VirtualAddress} (sound : SoundMap boot.map)
    (offered : boot.map.any Region.isOffered = true)
    (found :
      Host.find (bitmapFrames boot.map * frameSize)
        (boot.map.map Region.pastFrameZero) = some host)
    (reached : mapper.reach profile ⟨host.region.base⟩ = .ok address)
    (translated :
      mapper.toVirtual profile ⟨host.region.base⟩ = .ok accessible) :
    ∃ log,
      setUp profile mapper boot =
        .ok (.ok (founded mapper address boot.map))
          { map := remaining boot.map host
            memory :=
              (siteAt address boot.map).store
                (opened ((siteAt address boot.map).load boot.memory)
                  (remaining boot.map host))
                boot.memory
            log } := by
  rcases Host.exists_hosts found with ⟨before, after, origin, hosts⟩
  have positive := bitmapBytes_pos boot.map
  have small := bitmapFrames_le sound
  have low : host.region.top < wordCount := by
    rw [hosts.region_top sound]
    exact sound.top_lt hosts.origin_mem
  have bits : 0 < (siteAt address boot.map).bits := by
    simp only [siteAt]
    omega
  have census := Census.take_of_sound profile sound
  rcases exists_lowestUsable offered with ⟨lowest, lowestFound⟩
  unfold setUp
  rw [Action.bind_get, Action.bind_lift_of_ok census]
  simp only [lowestFound]
  rw [Action.bind_of_ok (reserveFrameZero_of_sound profile sound),
    Action.bind_lift_of_ok (add_reserved profile sound),
    Action.bind_lift_of_ok (bitmapBytesFor_of_sound profile sound),
    Action.bind_get]
  simp only [found]
  rw [Action.bind_of_ok (placeBitmap_of_reached profile _ low small reached)]
  dsimp only
  rw [Action.bind_lift_of_ok (add_bitmap profile sound),
    Action.bind_lift_of_ok translated]
  unfold record
  rw [Action.bind_modify,
    Action.bind_of_ok
      (markFree_of_low profile _ rfl (sound_remaining hosts sound).low
        (covers_remaining hosts sound rfl) bits
        (length_siteAt_le sound address))]
  have lowestEq : (Census.ofMap boot.map).lowestUsable.getD 0 = lowest := by
    rw [lowestFound]
    rfl
  have shown := info_founded profile sound mapper address
  unfold founded at shown ⊢
  rw [lowestEq] at shown ⊢
  simp only [Census.presentPages_ofMap]
  rcases shown _ with ⟨line, ran⟩
  exact ⟨_, Action.bind_of_ok ran⟩

/-- Through a direct map that reaches all memory the allocator always starts. -/
theorem setUp_of_found
    (profile : Profile) (sound : SoundMap boot.map)
    (reaches : DirectMap.Reaches ⟨offset⟩ boot.map)
    (offered : boot.map.any Region.isOffered = true)
    (found :
      Host.find (bitmapFrames boot.map * frameSize)
        (boot.map.map Region.pastFrameZero) = some host) :
    ∃ log,
      setUp profile (.direct ⟨offset⟩) boot =
        .ok (.ok (founder offset boot.map host))
          { map := remaining boot.map host
            memory :=
              (site offset boot.map host).store
                (opened ((site offset boot.map host).load boot.memory)
                  (remaining boot.map host))
                boot.memory
            log } := by
  rcases Host.exists_hosts found with ⟨before, after, origin, hosts⟩
  have reached := host_reached hosts sound reaches
  have nonempty : 0 < host.region.length.toNat :=
    Nat.lt_of_lt_of_le (bitmapBytes_pos boot.map) hosts.bytes_le
  have translated :
      (Mapper.direct ⟨offset⟩).toVirtual profile ⟨host.region.base⟩ =
        .ok ⟨UInt64.ofNat (host.region.base.toNat + offset.toNat)⟩ :=
    toVirtual_host profile reached.1 reached.2 nonempty
  exact setUp_of_reached profile sound offered found translated translated

/-- A map with a region for the bitmap has usable memory. -/
theorem any_isOffered_of_found
    (found :
      Host.find (bitmapFrames map * frameSize)
        (map.map Region.pastFrameZero) = some host)
    (sound : SoundMap map) : map.any Region.isOffered = true := by
  rcases Host.exists_hosts found with ⟨before, after, origin, hosts⟩
  have nonempty := hosts.length_ne_zero sound (bitmapBytes_pos map)
  rw [List.any_eq_true]
  exact
    ⟨origin, hosts.origin_mem,
      Region.isOffered_iff.mpr ⟨hosts.usable, nonempty⟩⟩

/-- Setting up the allocator succeeds, or says what the map lacks. -/
theorem setUp_outcome
    (profile : Profile) (sound : SoundMap boot.map)
    (reaches : DirectMap.Reaches ⟨offset⟩ boot.map) :
    (boot.map.any Region.isOffered = false ∧
      ∃ middle,
        setUp profile (.direct ⟨offset⟩) boot =
          .ok (.error .noUsableMemory) middle) ∨
    (boot.map.any Region.isOffered = true ∧
      Host.find (bitmapFrames boot.map * frameSize)
          (boot.map.map Region.pastFrameZero) = none ∧
      ∃ middle,
        setUp profile (.direct ⟨offset⟩) boot =
          .ok (.error (.noBitmapRegion (bitmapFrames boot.map * frameSize)))
            middle) ∨
    (∃ host log,
      Host.find (bitmapFrames boot.map * frameSize)
          (boot.map.map Region.pastFrameZero) = some host ∧
        setUp profile (.direct ⟨offset⟩) boot =
          .ok (.ok (founder offset boot.map host))
            { map := remaining boot.map host
              memory :=
                (site offset boot.map host).store
                  (opened ((site offset boot.map host).load boot.memory)
                    (remaining boot.map host))
                  boot.memory
              log }) := by
  cases offered : boot.map.any Region.isOffered with
  | false =>
      exact Or.inl
        ⟨rfl, _, setUp_of_none profile (.direct ⟨offset⟩) sound offered⟩
  | true =>
      cases found :
          Host.find (bitmapFrames boot.map * frameSize)
            (boot.map.map Region.pastFrameZero) with
      | none =>
          exact Or.inr <| Or.inl
            ⟨rfl, rfl, _,
              setUp_of_unhosted profile (.direct ⟨offset⟩) sound offered
                found⟩
      | some host =>
          rcases setUp_of_found profile sound reaches offered found with
            ⟨log, ran⟩
          exact Or.inr (Or.inr ⟨host, log, rfl, ran⟩)

/-- An allocator that was set up is the founder on an opened bitmap. -/
theorem setUp_ok
    {profile : Profile} (sound : SoundMap boot.map)
    (reaches : DirectMap.Reaches ⟨offset⟩ boot.map)
    {allocator : Allocator} {middle : Boot}
    (ran :
      setUp profile (.direct ⟨offset⟩) boot = .ok (.ok allocator) middle) :
    ∃ host,
      Host.find (bitmapFrames boot.map * frameSize)
          (boot.map.map Region.pastFrameZero) = some host ∧
        allocator = founder offset boot.map host ∧
        middle.memory =
          (site offset boot.map host).store
            (opened ((site offset boot.map host).load boot.memory)
              (remaining boot.map host))
            boot.memory := by
  rcases setUp_outcome profile sound reaches with
    ⟨-, other, refused⟩ | ⟨-, -, other, refused⟩ | ⟨host, log, found, founded⟩
  · rw [refused] at ran
    cases ran
  · rw [refused] at ran
    cases ran
  · rw [founded] at ran
    cases ran
    exact ⟨host, found, rfl, rfl⟩

/-- So is one that was set up through any mapper, on a bitmap that it reaches. -/
theorem setUp_founded
    {profile : Profile} {mapper : Mapper} (sound : SoundMap boot.map)
    {allocator : Allocator} {middle : Boot}
    (ran : setUp profile mapper boot = .ok (.ok allocator) middle) :
    ∃ host address,
      Host.find (bitmapFrames boot.map * frameSize)
          (boot.map.map Region.pastFrameZero) = some host ∧
        mapper.reach profile ⟨host.region.base⟩ = .ok address ∧
        allocator = founded mapper address boot.map ∧
        middle.memory =
          (siteAt address boot.map).store
            (opened ((siteAt address boot.map).load boot.memory)
              (remaining boot.map host))
            boot.memory := by
  rcases exists_founding ran with
    ⟨census, lowest, reserved, trimmed, occupied, bytes, host, storage,
      placed, usedPages, accessible, marked, took, -, reserves, -, sizes,
      found, places, -, translated, -, -, -⟩
  rw [Census.take_of_sound profile sound] at took
  cases took
  rw [reserveFrameZero_of_sound profile sound] at reserves
  cases reserves
  rw [bitmapBytesFor_of_sound profile sound] at sizes
  cases sizes
  unfold placeBitmap at places
  rcases Action.exists_of_bind_lift_ok places with ⟨address, reached, -⟩
  rcases
    setUp_of_reached profile sound (any_isOffered_of_found found sound) found
      reached translated with
    ⟨log, outcome⟩
  rw [outcome] at ran
  cases ran
  exact ⟨host, address, found, reached, rfl, rfl⟩

/-- The bitmap of a new allocator is the opened one. -/
theorem bitmap_start
    {allocator : Allocator} {middle : Boot} {memory : Memory}
    (small : allocator.storage.length ≤ wordCount)
    (stored :
      middle.memory =
        allocator.storage.store
          (opened (allocator.storage.load memory) map) memory) :
    (middle.start allocator).table.bitmap =
      opened (allocator.storage.load memory) map := by
  have loaded :=
    @Storage.load_store allocator.storage
      (opened (allocator.storage.load memory) map) memory (by simp) (by simp)
      small
  rw [← stored] at loaded
  exact loaded

/-- Of the bitmap that is opened only the size matters. -/
theorem opened_congr
    {left right : Bitmap} (bits : left.bits = right.bits)
    (size : left.bytes.size = right.bytes.size) :
    opened left map = opened right map := by
  have blank : left.fill true = right.fill true :=
    Bitmap.ext_bytes (by simp [Bitmap.fill, size]) bits
  rw [opened, opened, blank]

/-- The clear bits of an opened bitmap. -/
theorem bit_opened
    {bitmap : Bitmap} (covers : bitmap.Covers map) {frame : Nat}
    (inside : frame < bitmap.bits) :
    (opened bitmap map).bit frame = false ↔
      frame ≠ 0 ∧ ∃ region ∈ map, region.isUsable = true ∧
        region.HoldsFrame frame := by
  have coversFilled : (bitmap.fill true).Covers map := covers
  have reserved :
      (frame = 0 ∧ 0 < ((bitmap.fill true).offer map).bits) ↔ frame = 0 := by
    simp only [Bitmap.bits_offer, Bitmap.bits_fill]
    omega
  rw [opened, Bitmap.bit_put, if_congr reserved rfl rfl]
  split
  · rename_i zero
    simp [zero]
  · rename_i nonzero
    rw [Bitmap.bit_offer coversFilled, Bitmap.bit_fill]
    simp [inside, nonzero]

end Outcomes

end Boot

end BootMemory
