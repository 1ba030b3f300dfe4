import BootMemory.Proofs.Frames.Setup

/-!
# What setting up leaves behind

This module follows a set-up that succeeds through any mapper, on any map whose
regions end at or below `physicalLimit`.  Regions may overlap and come in any
order, so nothing is counted here: page totals may even wrap around in the
release profile, and neither the bitmap nor the map depends on them.

`Boot.Adjusts` says how the map is adjusted, region by region, and
`Boot.setUp_post_state` that the clear bits afterwards are those of the frames
that the adjusted map offers.
-/

namespace BootMemory

/-! ## The end of memory -/

namespace Census

theorem highestRam_bound (census : Census) (region : Region) :
    (census.bound region).highestRam = census.highestRam := by
  unfold bound
  split <;> rfl

theorem highestRam_of_countPages
    {profile : Profile} {census counted : Census} {region : Region}
    (ran : census.countPages profile region = .ok counted) :
    counted.highestRam =
      if region.isPresent then
        max census.highestRam region.stop
      else
        census.highestRam := by
  unfold countPages at ran
  unfold Region.isPresent
  split at ran
  · rename_i present
    rw [if_pos present]
    rcases Action.exists_of_bind_eq_ok ran with ⟨pages, -, afterPages⟩
    rcases Action.exists_of_bind_eq_ok afterPages with ⟨total, -, afterTotal⟩
    dsimp only at afterTotal
    split at afterTotal
    · rcases Action.exists_of_bind_eq_ok afterTotal with ⟨occupied, -, last⟩
      cases last
      rfl
    · cases afterTotal
      rfl
  · rename_i absent
    rw [if_neg absent]
    cases ran
    rfl

/-- Wherever memory is counted, it ends where the exact census says. -/
theorem highestRam_of_foldlM
    {profile : Profile} {map : List Region} {census exact final : Census}
    (same : census.highestRam = exact.highestRam)
    (ran : map.foldlM (add profile) census = .ok final) :
    final.highestRam = (map.foldl tally exact).highestRam := by
  induction map generalizing census exact with
  | nil =>
      cases ran
      exact same
  | cons region map inductionHypothesis =>
      rw [List.foldlM_cons] at ran
      rcases Action.exists_of_bind_eq_ok ran with ⟨next, added, rest⟩
      rcases Action.exists_of_bind_eq_ok added with ⟨counted, pages, bounded⟩
      refine inductionHypothesis ?_ rest
      cases bounded
      have reached : (census.reach region).highestRam = census.highestRam := rfl
      rw [highestRam_bound, highestRam_of_countPages pages, highestRam_tally,
        reached, same]

theorem highestRam_of_take
    {profile : Profile} {map : List Region} {census : Census}
    (took : take profile map = .ok census) :
    census.highestRam = (ofMap map).highestRam :=
  highestRam_of_foldlM rfl took

end Census

/-! ## Where regions start -/

namespace Region

/-- Where a usable region starts once it is moved off frame zero. -/
def startPastFrameZero (region : Region) : Nat :=
  if region.base.toNat < frameSize then
    min frameSize region.top
  else
    region.base.toNat

theorem base_pastFrameZero
    {region : Region} (low : region.top < wordCount)
    (usable : region.isUsable = true) :
    region.pastFrameZero.base.toNat = region.startPastFrameZero := by
  unfold pastFrameZero startPastFrameZero
  rw [usable, Bool.true_and]
  by_cases below : region.base < 4096
  · have bounds := toNat_below_frameSize below
    rw [if_pos (decide_eq_true below), if_pos bounds.1, base_dropFront low,
      bounds.2]
    simp only [top, frameSize] at bounds ⊢
    omega
  · have above : ¬ region.base.toNat < frameSize := by
      rw [UInt64.lt_iff_toNat_lt] at below
      exact below
    rw [if_neg (by simpa using below), if_neg above]

theorem pastFrameZero_of_not_usable
    {region : Region} (unusable : region.isUsable = false) :
    region.pastFrameZero = region := by
  simp [pastFrameZero, unusable]

theorem pastFrameZero_of_le
    {region : Region} (above : frameSize ≤ region.base.toNat) :
    region.pastFrameZero = region := by
  have high : ¬ region.base < 4096 := by
    rw [UInt64.lt_iff_toNat_lt]
    exact Nat.not_lt.mpr above
  simp [pastFrameZero, high]

theorem base_le_pastFrameZero
    (region : Region) (low : region.top < wordCount) :
    region.base.toNat ≤ region.pastFrameZero.base.toNat := by
  unfold pastFrameZero
  split
  · rw [base_dropFront low]
    exact Nat.le_add_right _ _
  · exact Nat.le_refl _

end Region

namespace Boot

variable {profile : Profile} {mapper : Mapper} {boot middle : Boot}

/-! ## The steps of a set-up that succeeds -/

/-- Placing the bitmap sets all its bits and takes its bytes off the host. -/
theorem placeBitmap_ok
    {map : List Region} {host : Host} {storage : Storage}
    (low : host.region.top < wordCount) (small : bitmapFrames map ≤ 2 ^ 25)
    (ran :
      placeBitmap profile mapper (bitmapFrames map * frameSize) host boot =
        .ok (.ok storage) middle) :
    storage.length = bitmapFrames map * frameSize ∧
      storage.bits = bitmapFrames map * frameSize * 8 ∧
        middle =
          { boot with
            map := remaining map host
            memory := storage.fill boot.memory true } := by
  cases reached : mapper.reach profile ⟨host.region.base⟩ with
  | ok address =>
      rw [placeBitmap_of_reached profile boot low small reached] at ran
      cases ran
      exact ⟨rfl, rfl, rfl⟩
  | error fault =>
      unfold placeBitmap at ran
      rw [Action.bind_lift_of_error reached] at ran
      cases ran

/-- The summary at the end changes nothing but the log. -/
theorem info_ok
    {allocator : Allocator}
    (ran :
      withAllocator allocator (Machine.info profile) boot = .ok () middle) :
    middle.map = boot.map ∧ middle.memory = boot.memory := by
  unfold withAllocator Action.focus Machine.info at ran
  rw [Action.bind_get] at ran
  cases shown :
      (Machine.stats
        { allocator, memory := boot.memory, log := boot.log }).display
          profile with
  | ok line =>
      rw [Action.bind_lift_of_ok shown] at ran
      cases ran
      exact ⟨rfl, rfl⟩
  | error fault =>
      rw [Action.bind_lift_of_error shown] at ran
      cases ran

/-- The size of the bitmap follows from the end of memory alone. -/
theorem bitmapBytesFor_of_take
    {map : List Region} {census : Census}
    (low : ∀ region ∈ map, region.top ≤ physicalLimit)
    (took : Census.take profile map = .ok census) :
    bitmapBytesFor profile census.highestRam =
      .ok (bitmapFrames map * frameSize) := by
  rw [Census.highestRam_of_take took]
  exact bitmapBytesFor_of_le profile (highestRam_le_of_low low)

/-- The host of the bitmap, and what the allocator knows of it. -/
structure Opened
    (boot middle : Boot) (allocator : Allocator) (host : Host) : Prop where
  found :
    Host.find (bitmapFrames boot.map * frameSize)
      (boot.map.map Region.pastFrameZero) = some host
  length_eq : allocator.storage.length = bitmapFrames boot.map * frameSize
  bits_eq : allocator.storage.bits = bitmapFrames boot.map * frameSize * 8
  limit_eq :
    allocator.frameLimit = (Census.ofMap boot.map).highestRam / frameSize
  map_eq : middle.map = remaining boot.map host
  memory_eq :
    middle.memory =
      allocator.storage.store
        (opened (allocator.storage.load boot.memory) middle.map) boot.memory

section Hosts

variable {map : List Region} {host : Host} {bytes : Nat}
  {before after : List Region} {origin : Region}

theorem top_host_lt
    (low : ∀ region ∈ map, region.top ≤ physicalLimit)
    (hosts : host.Hosts bytes map before after origin) :
    host.region.top < wordCount := by
  have bound := lt_wordCount_of_le (low origin hosts.origin_mem)
  rw [hosts.region_eq, Region.top_pastFrameZero bound]
  exact bound

/-- A region of the adjusted map is what is left of one of the same kind. -/
theorem exists_source
    (low : ∀ region ∈ map, region.top ≤ physicalLimit)
    (hosts : host.Hosts bytes map before after origin) {region : Region}
    (member : region ∈ host.mapWith (host.region.dropFront bytes)) :
    ∃ original ∈ map, region.isUsable = original.isUsable ∧
      region.top = original.top ∧
        original.base.toNat ≤ region.base.toNat := by
  have hostLow := top_host_lt low hosts
  rcases (hosts.mem_mapWith_iff _ _).mp member with
    rfl | ⟨original, other, rfl⟩
  · have bound := lt_wordCount_of_le (low origin hosts.origin_mem)
    have past := origin.base_le_pastFrameZero bound
    refine ⟨origin, hosts.origin_mem, ?_, ?_, ?_⟩
    · rw [Region.isUsable_dropFront, hosts.region_eq,
        Region.isUsable_pastFrameZero]
    · rw [Region.top_dropFront hostLow, hosts.region_eq,
        Region.top_pastFrameZero bound]
    · rw [Region.base_dropFront hostLow, hosts.region_eq]
      omega
  · have inMap := (hosts.mem_iff original).mpr (Or.inr other)
    have bound := lt_wordCount_of_le (low original inMap)
    exact
      ⟨original, inMap, Region.isUsable_pastFrameZero original,
        Region.top_pastFrameZero bound,
        original.base_le_pastFrameZero bound⟩

theorem low_remaining
    (low : ∀ region ∈ map, region.top ≤ physicalLimit)
    (hosts : host.Hosts bytes map before after origin) :
    ∀ region ∈ host.mapWith (host.region.dropFront bytes),
      region.top ≤ physicalLimit := by
  intro region member
  rcases exists_source low hosts member with ⟨original, inMap, -, top, -⟩
  rw [top]
  exact low original inMap

/-- The frames that the adjusted map offers are below the end of memory. -/
theorem offered_lt_limit
    (low : ∀ region ∈ map, region.top ≤ physicalLimit)
    (hosts : host.Hosts bytes map before after origin)
    {region : Region} {frame : Nat}
    (member : region ∈ host.mapWith (host.region.dropFront bytes))
    (usable : region.isUsable = true) (holds : region.HoldsFrame frame) :
    frame < (Census.ofMap map).highestRam / frameSize := by
  rcases exists_source low hosts member with
    ⟨original, inMap, sameKind, sameTop, lower⟩
  rw [sameKind] at usable
  refine
    frame_lt_limit_of_low low inMap (Region.isRam_of_isUsable usable)
      ⟨Nat.le_trans lower holds.1, ?_⟩
  rw [← sameTop]
  exact holds.2

/-- The bitmap has a bit for every frame that the adjusted map offers. -/
theorem covers_opened
    (low : ∀ region ∈ map, region.top ≤ physicalLimit)
    (hosts : host.Hosts bytes map before after origin) {bitmap : Bitmap}
    (bits : bitmap.bits = bitmapFrames map * frameSize * 8) :
    bitmap.Covers (host.mapWith (host.region.dropFront bytes)) := by
  intro region member usable frame holds
  rw [bits]
  exact
    Nat.lt_of_lt_of_le (offered_lt_limit low hosts member usable holds)
      (limit_le_bits map)

/-- Marking the free frames opens the bitmap that was just placed. -/
theorem markFree_placed
    (low : ∀ region ∈ map, region.top ≤ physicalLimit)
    (hosts :
      host.Hosts (bitmapFrames map * frameSize) map before after origin)
    {storage : Storage}
    (length : storage.length = bitmapFrames map * frameSize)
    (bits : storage.bits = bitmapFrames map * frameSize * 8)
    (memory : Memory) (log : Log) :
    markFree profile storage
        { map := remaining map host
          memory := storage.fill memory true
          log } =
      .ok ()
        { map := remaining map host
          memory :=
            storage.store
              (opened (storage.load memory) (remaining map host)) memory
          log } := by
  have small := bitmapFramesFor_le (highestRam_le_of_low low)
  have positive := bitmapBytes_pos map
  apply markFree_of_low profile _ rfl (low_remaining low hosts)
    (covers_opened low hosts bits)
  · omega
  · rw [length]
    simp only [bitmapFrames, frameSize, wordCount]
    omega

end Hosts

/-- A set-up that succeeds has opened a bitmap at the front of its host. -/
theorem setUp_opened
    {allocator : Allocator}
    (low : ∀ region ∈ boot.map, region.top ≤ physicalLimit)
    (ran : setUp profile mapper boot = .ok (.ok allocator) middle) :
    ∃ host, Opened boot middle allocator host := by
  have small := bitmapFramesFor_le (highestRam_le_of_low low)
  have below : ∀ region ∈ boot.map, region.top < wordCount :=
    fun region member => lt_wordCount_of_le (low region member)
  -- Of the census only the end of memory is used: counts may have wrapped.
  rcases exists_founding ran with
    ⟨census, lowest, reserved, trimmed, occupied, bytes, host, storage,
      placed, usedPages, accessible, marked, took, -, reserves, -, sizes,
      found, places, -, -, marks, reports, rfl⟩
  rw [reserveFrameZero_of_low profile below] at reserves
  cases reserves
  rw [bitmapBytesFor_of_take low took] at sizes
  cases sizes
  rcases Host.exists_hosts found with ⟨before, after, origin, hosts⟩
  rcases placeBitmap_ok (top_host_lt low hosts) small places with
    ⟨length, bits, rfl⟩
  rw [markFree_placed low hosts length bits boot.memory _] at marks
  cases marks
  rcases info_ok reports with ⟨mapEq, memoryEq⟩
  refine ⟨host, ⟨found, length, bits, ?_, mapEq, ?_⟩⟩
  · rw [Census.highestRam_of_take took]
  · rw [mapEq]
    exact memoryEq

/-! ## The adjusted map, region by region -/

/--
A map is adjusted for a bitmap of some bytes at the region with a place: usable
regions start past frame zero, and the one at the place, the first that has
room, starts behind the bitmap.  Nothing else changes.
-/
structure Adjusts
    (bytes place : Nat) (map adjusted : List Region) : Prop where
  length_eq : adjusted.length = map.length
  kind_eq : ∀ index (old : index < map.length)
    (new : index < adjusted.length),
      adjusted[index].kind = map[index].kind
  top_eq : ∀ index (old : index < map.length)
    (new : index < adjusted.length),
      adjusted[index].top = map[index].top
  other_eq : ∀ index (old : index < map.length)
    (new : index < adjusted.length),
      map[index].isUsable = false → adjusted[index] = map[index]
  untouched_eq : ∀ index (old : index < map.length)
    (new : index < adjusted.length),
      frameSize ≤ map[index].base.toNat → index ≠ place →
        adjusted[index] = map[index]
  base_eq : ∀ index (old : index < map.length)
    (new : index < adjusted.length),
      map[index].isUsable = true → index ≠ place →
        adjusted[index].base.toNat = map[index].startPastFrameZero
  host_eq : ∃ (old : place < map.length) (new : place < adjusted.length),
    map[place].isUsable = true ∧
      bytes ≤ map[place].top - map[place].startPastFrameZero ∧
        adjusted[place].base.toNat = map[place].startPastFrameZero + bytes
  host_first : ∀ index (old : index < map.length),
    index < place → map[index].isUsable = true →
      map[index].top - map[index].startPastFrameZero < bytes

section Places

variable {map : List Region} {host : Host} {bytes : Nat}
  {before after : List Region} {origin : Region}

/-- Replacing the host is replacing one region of the map by its place. -/
theorem mapWith_eq_set
    (hosts : host.Hosts bytes map before after origin) (region : Region) :
    host.mapWith region =
      (map.map Region.pastFrameZero).set before.length region := by
  rw [hosts.map_eq, hosts.host_eq]
  simp [Host.mapWith]

theorem getElem_mapWith
    (hosts : host.Hosts bytes map before after origin) (region : Region)
    {index : Nat} (old : index < map.length)
    (new : index < (host.mapWith region).length) :
    (host.mapWith region)[index] =
      if before.length = index then
        region
      else
        map[index].pastFrameZero := by
  simp only [mapWith_eq_set hosts, List.getElem_set, List.getElem_map]

theorem length_pastFrameZero
    {region : Region} (low : region.top < wordCount)
    (usable : region.isUsable = true) :
    region.pastFrameZero.length.toNat =
      region.top - region.startPastFrameZero := by
  have base := Region.base_pastFrameZero low usable
  have top := Region.top_pastFrameZero low
  unfold Region.top at top ⊢
  omega

/-- No region before the host has room for the bitmap. -/
theorem canHold_before
    (found : Host.find bytes map = some host) :
    ∀ region ∈ host.before, Host.canHold bytes region = false := by
  intro region member
  unfold Host.find at found
  split at found
  · cases found
  · cases found
    have kept :=
      List.all_eq_true.mp
        (@List.all_takeWhile _ (fun region => !Host.canHold bytes region) map)
        region member
    simpa using kept

theorem getElem_origin
    (hosts : host.Hosts bytes map before after origin)
    (old : before.length < map.length) : map[before.length] = origin := by
  simp [hosts.map_eq]

theorem adjusts_carved
    (low : ∀ region ∈ map, region.top ≤ physicalLimit)
    (found :
      Host.find bytes (map.map Region.pastFrameZero) = some host)
    (hosts : host.Hosts bytes map before after origin) :
    Adjusts bytes before.length map
      (host.mapWith (host.region.dropFront bytes)) := by
  have hostLow := top_host_lt low hosts
  have narrow : ∀ index (old : index < map.length),
      map[index].top < wordCount := by
    intro index old
    exact lt_wordCount_of_le (low map[index] (List.getElem_mem old))
  have inside : before.length < map.length := by
    simp [hosts.map_eq]
  have originLow := narrow before.length inside
  rw [getElem_origin hosts inside] at originLow
  have fits := hosts.bytes_le
  have length : (host.mapWith (host.region.dropFront bytes)).length =
      map.length := by
    rw [mapWith_eq_set hosts, List.length_set, List.length_map]
  have start := Region.base_pastFrameZero originLow hosts.usable
  have size := length_pastFrameZero originLow hosts.usable
  rw [← hosts.region_eq] at start size
  refine
    { length_eq := length
      kind_eq := ?_
      top_eq := ?_
      other_eq := ?_
      untouched_eq := ?_
      base_eq := ?_
      host_eq := ⟨inside, by rw [length]; exact inside, ?_, ?_, ?_⟩
      host_first := ?_ }
  · intro index old new
    rw [getElem_mapWith hosts _ old new]
    split
    · rename_i same
      subst same
      rw [getElem_origin hosts old, Region.kind_dropFront, hosts.region_eq,
        Region.kind_pastFrameZero]
    · exact Region.kind_pastFrameZero _
  · intro index old new
    rw [getElem_mapWith hosts _ old new]
    split
    · rename_i same
      subst same
      rw [getElem_origin hosts old, Region.top_dropFront hostLow,
        hosts.region_eq, Region.top_pastFrameZero originLow]
    · exact Region.top_pastFrameZero (narrow index old)
  · intro index old new unusable
    rw [getElem_mapWith hosts _ old new]
    split
    · rename_i same
      subst same
      rw [getElem_origin hosts old, hosts.usable] at unusable
      cases unusable
    · exact Region.pastFrameZero_of_not_usable unusable
  · intro index old new above elsewhere
    rw [getElem_mapWith hosts _ old new, if_neg (Ne.symm elsewhere)]
    exact Region.pastFrameZero_of_le above
  · intro index old new usable elsewhere
    rw [getElem_mapWith hosts _ old new, if_neg (Ne.symm elsewhere)]
    exact Region.base_pastFrameZero (narrow index old) usable
  · rw [getElem_origin hosts inside]
    exact hosts.usable
  · rw [getElem_origin hosts inside, ← size]
    exact fits
  · rw [getElem_mapWith hosts _ inside, if_pos rfl,
      getElem_origin hosts inside, Region.base_dropFront hostLow, start,
      Nat.min_eq_left fits]
  · intro index old earlier usable
    have member : map[index].pastFrameZero ∈ host.before := by
      rw [hosts.host_eq]
      apply List.mem_map_of_mem
      have entry : map[index] = before[index] := by
        simp [hosts.map_eq, List.getElem_append_left earlier]
      rw [entry]
      exact List.getElem_mem earlier
    have short := canHold_before found _ member
    rw [← Bool.not_eq_true, Host.canHold_iff] at short
    have room : ¬ bytes ≤ map[index].pastFrameZero.length.toNat := by
      intro holds
      exact short ⟨by rw [Region.isUsable_pastFrameZero]; exact usable, holds⟩
    rw [length_pastFrameZero (narrow index old) usable] at room
    omega

end Places

/-! ## The bitmap -/

theorem Opened.bitmap_eq
    {allocator : Allocator} {host : Host}
    (low : ∀ region ∈ boot.map, region.top ≤ physicalLimit)
    (opens : Opened boot middle allocator host) :
    (middle.start allocator).table.bitmap =
      opened (allocator.storage.load boot.memory) middle.map := by
  have small := bitmapFramesFor_le (highestRam_le_of_low low)
  have length := opens.length_eq
  refine bitmap_start ?_ opens.memory_eq
  rw [length]
  simp only [bitmapFrames, frameSize, wordCount]
  omega

/--
What a set-up that succeeds leaves behind: the bits that are clear, the size of
the bitmap, and the adjusted map.
-/
structure PostState
    (profile : Profile) (boot middle : Boot) (allocator : Allocator) :
    Prop where
  clear_iff : ∀ frame, frame < allocator.storage.bits →
    ((middle.start allocator).table.bitmap.bit frame = false ↔
      1 ≤ frame ∧ ∃ region ∈ middle.map, region.isUsable = true ∧
        region.HoldsFrame frame)
  used_beyond : ∀ frame, allocator.frameLimit ≤ frame →
    frame < allocator.storage.bits →
      (middle.start allocator).table.bitmap.bit frame = true
  bytes_eq :
    bitmapBytesFor profile (Census.ofMap boot.map).highestRam =
      .ok allocator.storage.length
  bits_eq : allocator.storage.bits = allocator.storage.length * 8
  adjusted :
    ∃ place, Adjusts allocator.storage.length place boot.map middle.map

/--
After a set-up that succeeds the clear bits are those of the frames that lie in
usable regions of the adjusted map entirely, frame zero excepted.
-/
theorem setUp_post_state
    {allocator : Allocator}
    (low : ∀ region ∈ boot.map, region.top ≤ physicalLimit)
    (ran : setUp profile mapper boot = .ok (.ok allocator) middle) :
    PostState profile boot middle allocator := by
  rcases setUp_opened low ran with ⟨host, opens⟩
  rcases Host.exists_hosts opens.found with ⟨before, after, origin, hosts⟩
  have bitmap := opens.bitmap_eq low
  have length := opens.length_eq
  have bits := opens.bits_eq
  have map := opens.map_eq
  have covers :
      (allocator.storage.load boot.memory).Covers middle.map := by
    rw [map]
    exact covers_opened low hosts bits
  have clear_iff : ∀ frame, frame < allocator.storage.bits →
      ((middle.start allocator).table.bitmap.bit frame = false ↔
        1 ≤ frame ∧ ∃ region ∈ middle.map, region.isUsable = true ∧
          region.HoldsFrame frame) := by
    intro frame inside
    rw [bitmap, bit_opened covers inside, Nat.one_le_iff_ne_zero]
  refine
    { clear_iff
      used_beyond := ?_
      bytes_eq := ?_
      bits_eq := ?_
      adjusted := ⟨before.length, ?_⟩ }
  · intro frame beyond inside
    rw [← Bool.not_eq_false, clear_iff frame inside]
    rintro ⟨-, region, member, usable, holds⟩
    rw [map] at member
    have below := offered_lt_limit low hosts member usable holds
    rw [opens.limit_eq] at beyond
    omega
  · rw [length]
    exact bitmapBytesFor_of_le profile (highestRam_le_of_low low)
  · rw [length, bits]
  · rw [length, map]
    exact adjusts_carved low opens.found hosts

end Boot

namespace Sample

/-- Usable memory from frame zero on, with memory behind it that is not. -/
def trimmedMap : List Region := [⟨0, 16384, .usable⟩, ⟨16384, 8192, .reserved⟩]

/-- The first region holds the bitmap once it is moved off frame zero. -/
def trimmedHost : Host :=
  ⟨[], ⟨4096, 12288, .usable⟩, [⟨16384, 8192, .reserved⟩]⟩

theorem trimmedMap_sound : SoundMap trimmedMap :=
  .of_sorted (by decide) (by decide)

theorem trimmedMap_found :
    Host.find (Boot.bitmapFrames trimmedMap * frameSize)
      (trimmedMap.map Region.pastFrameZero) = some trimmedHost := by
  have frames : Boot.bitmapFrames trimmedMap = 1 := by decide
  rw [frames]
  rfl

/-- A region that is both moved off frame zero and shortened by the bitmap. -/
theorem trimmed_post_state :
    (∀ region ∈ trimmedMap, region.top ≤ physicalLimit) ∧
      ∃ (boot middle : Boot) (allocator : Allocator),
        boot.map = trimmedMap ∧
          Boot.setUp .debug (.direct ⟨1099511627776⟩) boot =
            .ok (.ok allocator) middle ∧
          Boot.PostState .debug boot middle allocator := by
  have reaches : DirectMap.Reaches ⟨1099511627776⟩ trimmedMap := by
    intro region member _
    simp only [trimmedMap, List.mem_cons, List.not_mem_nil, or_false] at member
    rcases member with rfl | rfl <;> decide
  rcases @Boot.setUp_of_found 1099511627776 ⟨trimmedMap, Memory.zero, []⟩
    trimmedHost .debug trimmedMap_sound reaches (by decide)
    trimmedMap_found with ⟨log, ran⟩
  exact
    ⟨trimmedMap_sound.low, _, _, _, rfl, ran,
      Boot.setUp_post_state trimmedMap_sound.low ran⟩

end Sample

end BootMemory
