import BootMemory.Proofs.Frames.Setup

/-!
# The ledger of a run

The allocator does not know who holds what.  A `Ledger` follows a run and keeps
that account beside the machine: the blocks that are live, and the frames in
use at boot that were given back since.  `Ledger.Step` is one call that keeps
to the contract, `Ledger.ReachableThrough` a run of such calls from a successful
set-up through a mapper, and `Ledger.Reachable` one on a direct map.

A call changes the bitmap, the used pages and the cursor, and `Machine.Keeps`
lists what it leaves alone.  The used pages and the clear bits have a constant
sum, `Machine.balance`.
-/

namespace BootMemory

/-- Memory that was handed out. -/
structure Block where
  address : PhysicalAddress
  size : UInt64
  deriving DecidableEq

namespace Block

/-- The frames of a block, counted. -/
def count (block : Block) : Nat := framesFor block.size.toNat

/-- The frames of a block. -/
def frames (block : Block) : Finset Nat :=
  Finset.Ico block.address.frame (block.address.frame + block.count)

/-- A byte of physical memory lies in a block. -/
def Contains (block : Block) (byte : Nat) : Prop :=
  block.address.value.toNat ≤ byte ∧
    byte < block.address.value.toNat + block.count * frameSize

@[simp]
theorem mem_frames {block : Block} {frame : Nat} :
    frame ∈ block.frames ↔
      block.address.frame ≤ frame ∧
        frame < block.address.frame + block.count :=
  Finset.mem_Ico

/-- A release names the frames of a block; frame zero is not among them. -/
theorem names_iff (block : Block) (frame : Nat) :
    FrameTable.Names block.address.frame block.count frame ↔
      frame ≠ 0 ∧ frame ∈ block.frames := by
  have first := block.address.frame_lt
  have bound := block.size.toNat_lt
  have small : block.address.frame + block.count < wordCount := by
    simp only [count, framesFor, frameSize, wordCount, frameCount] at first ⊢
    omega
  rw [FrameTable.names_iff small, mem_frames]

/-- The frames of a block that starts at a frame. -/
theorem mem_frames_ofFrame
    {first frame : Nat} (small : first < frameCount)
    (size : UInt64) :
    frame ∈ (Block.mk (Address.ofFrame first) size).frames ↔
      first ≤ frame ∧ frame < first + framesFor size.toNat := by
  rw [mem_frames, count, Address.frame_ofFrame_of_lt small]

end Block

namespace Region

/-- A frame lies entirely in memory of a map that is free. -/
def UsableFrame (map : List Region) (frame : Nat) : Prop :=
  ∃ region ∈ map, region.isUsable = true ∧ region.HoldsFrame frame

/-- A frame lies entirely in memory of a map that is in use at boot. -/
def OccupiedFrame (map : List Region) (frame : Nat) : Prop :=
  ∃ region ∈ map, region.isOccupied = true ∧ region.HoldsFrame frame

end Region

/-- A machine with an account of who holds which memory. -/
structure Ledger where
  machine : Machine
  /-- The blocks that were handed out and not given back. -/
  live : List Block
  /-- The frames in use at boot that were given back since. -/
  released : Finset Nat

namespace Ledger

/--
One call that keeps to the contract.  What is given back is a live block, or
whole frames in use at boot that were not given back before.
-/
inductive Step (profile : Profile) (map : List Region) :
    Ledger → Ledger → Prop where
  | granted {ledger : Ledger} {machine : Machine} {size : UInt64}
      {address : PhysicalAddress}
      (nonzero : size ≠ 0)
      (ran :
        ledger.machine.allocate profile size = .ok (.ok address) machine) :
      Step profile map ledger
        { ledger with machine, live := ⟨address, size⟩ :: ledger.live }
  | unserved {ledger : Ledger} {machine : Machine} {size : UInt64}
      {result : Except AllocError PhysicalAddress}
      (nothing : size = 0 ∨ ∃ refusal, result = .error refusal)
      (ran : ledger.machine.allocate profile size = .ok result machine) :
      Step profile map ledger { ledger with machine }
  | ignored {ledger : Ledger} {machine : Machine}
      {address : PhysicalAddress} {size : UInt64}
      (nothing : address = Address.null ∨ size = 0)
      (ran : ledger.machine.free profile address size = .ok () machine) :
      Step profile map ledger { ledger with machine }
  | freed {ledger : Ledger} {machine : Machine} {block : Block}
      {size : UInt64}
      (member : block ∈ ledger.live)
      (same : framesFor size.toNat = block.count)
      (ran :
        ledger.machine.free profile block.address size = .ok () machine) :
      Step profile map ledger
        { ledger with machine, live := ledger.live.erase block }
  | handedBack {ledger : Ledger} {machine : Machine} {block : Block}
      (named : block.address ≠ Address.null) (nonzero : block.size ≠ 0)
      (whole : ∀ frame ∈ block.frames,
        Region.OccupiedFrame map frame ∧ frame ∉ ledger.released)
      (ran :
        ledger.machine.free profile block.address block.size =
          .ok () machine) :
      Step profile map ledger
        { ledger with
          machine
          released := ledger.released ∪ block.frames }

/-- The ledgers of all runs from a successful set-up through a mapper. -/
inductive ReachableThrough
    (profile : Profile) (mapper : Mapper) (map : List Region) :
    Ledger → Prop where
  | start {boot middle : Boot} {allocator : Allocator}
      (same : boot.map = map)
      (ran : Boot.setUp profile mapper boot = .ok (.ok allocator) middle) :
      ReachableThrough profile mapper map
        { machine := middle.start allocator, live := [], released := ∅ }
  | step {before after : Ledger}
      (reachable : ReachableThrough profile mapper map before)
      (taken : Step profile map before after) :
      ReachableThrough profile mapper map after

/-- The ledgers of all runs on the direct map with an offset. -/
def Reachable
    (profile : Profile) (offset : UInt64) (map : List Region) :
    Ledger → Prop :=
  ReachableThrough profile (.direct ⟨offset⟩) map

end Ledger

/-! ## What no call changes -/

namespace Machine

variable {offset : UInt64} {map : List Region} {machine later : Machine}

/-- A frame of free memory that the bitmap does not touch. -/
def Offers
    (offset : UInt64) (map : List Region) (machine : Machine)
    (frame : Nat) : Prop :=
  Region.UsableFrame map frame ∧ machine.Apart offset frame

/-- The bitmap, moved up to a frame boundary, would still fit its region. -/
def Seated
    (offset : UInt64) (map : List Region) (machine : Machine) : Prop :=
  ∃ region ∈ map, region.isUsable = true ∧
    region.Seats (machine.place offset) machine.allocator.storage.length

/--
Limits, totals and the place of the bitmap are those that the map asks for.  A
successful set-up establishes this for good.
-/
structure FitsMap
    (offset : UInt64) (map : List Region) (machine : Machine) : Prop where
  placed : machine.Placed offset
  limit_eq :
    machine.allocator.frameLimit =
      (Census.ofMap map).highestRam / frameSize
  covered :
    machine.allocator.frameLimit ≤ machine.allocator.storage.bits
  total_eq :
    machine.allocator.totalPages = Region.pagesWhere Region.isRam map
  usable_eq :
    machine.allocator.usablePages = Region.pagesWhere Region.isRam map
  hosted : ∃ region ∈ map, region.isUsable = true ∧
    region.base.toNat ≤ machine.place offset ∧
      machine.place offset + machine.allocator.storage.length ≤ region.top
  nonempty : 0 < machine.allocator.storage.length

/-- A later machine has the books of an earlier one but for what calls change. -/
structure Keeps (machine later : Machine) : Prop where
  mapper : later.allocator.mapper = machine.allocator.mapper
  storage : later.allocator.storage = machine.allocator.storage
  limit : later.allocator.frameLimit = machine.allocator.frameLimit
  total : later.allocator.totalPages = machine.allocator.totalPages
  usable : later.allocator.usablePages = machine.allocator.usablePages

namespace Keeps

theorem place (keeps : machine.Keeps later) :
    later.place offset = machine.place offset := by
  rw [Machine.place, Machine.place, keeps.storage]

theorem apart (keeps : machine.Keeps later) (frame : Nat) :
    later.Apart offset frame ↔ machine.Apart offset frame := by
  rw [Apart, Apart, keeps.place, keeps.storage]

theorem offers (keeps : machine.Keeps later) (frame : Nat) :
    later.Offers offset map frame ↔ machine.Offers offset map frame := by
  rw [Offers, Offers, keeps.apart]

theorem seated (keeps : machine.Keeps later) :
    later.Seated offset map ↔ machine.Seated offset map := by
  rw [Seated, Seated, keeps.place, keeps.storage]

theorem placed
    (keeps : machine.Keeps later) (placed : machine.Placed offset) :
    later.Placed offset where
  mapper_eq := keeps.mapper.trans placed.mapper_eq
  offset_le := by
    rw [keeps.storage]
    exact placed.offset_le
  storage_le := by
    rw [keeps.storage]
    exact placed.storage_le
  frames_le := by
    rw [keeps.limit]
    exact placed.frames_le
  reach_le := by
    rw [keeps.limit]
    exact placed.reach_le
  bits_lt := by
    rw [keeps.storage]
    exact placed.bits_lt

theorem fitsMap
    (keeps : machine.Keeps later)
    (fits : machine.FitsMap offset map) :
    later.FitsMap offset map where
  placed := keeps.placed fits.placed
  limit_eq := keeps.limit.trans fits.limit_eq
  covered := by
    rw [keeps.limit, keeps.storage]
    exact fits.covered
  total_eq := keeps.total.trans fits.total_eq
  usable_eq := keeps.usable.trans fits.usable_eq
  hosted := by
    rw [keeps.place, keeps.storage]
    exact fits.hosted
  nonempty := by
    rw [keeps.storage]
    exact fits.nonempty

end Keeps

theorem grant_keeps (machine : Machine) (first count : Nat) (wrapped : Bool) :
    machine.Keeps (machine.grant offset first count wrapped) :=
  ⟨rfl, rfl, rfl, rfl, rfl⟩

theorem takeBack_keeps
    (machine : Machine) (address : PhysicalAddress) (count : Nat) :
    machine.Keeps (machine.takeBack address count) :=
  ⟨rfl, rfl, rfl, rfl, rfl⟩

/-! ## The balance of used pages and clear bits -/

/-- The frames below the end of memory whose bit is clear. -/
def clearFrames (machine : Machine) : Finset Nat :=
  (Finset.range machine.allocator.frameLimit).filter fun frame =>
    machine.table.bitmap.bit frame = false

/-- The used pages and the clear frames together. -/
def balance (machine : Machine) : Nat :=
  machine.allocator.usedPages + machine.clearFrames.card

@[simp]
theorem mem_clearFrames {frame : Nat} :
    frame ∈ machine.clearFrames ↔
      frame < machine.allocator.frameLimit ∧
        machine.table.bitmap.bit frame = false := by
  simp [clearFrames]

theorem Placed.length_le (placed : machine.Placed offset) :
    machine.allocator.storage.length ≤ wordCount := by
  have bound := placed.storage_le
  omega

section Grant

variable {first count : Nat}

theorem bit_grant
    (placed : machine.Placed offset)
    (covered :
      machine.allocator.frameLimit ≤ machine.allocator.storage.bits)
    (inside : first + count ≤ machine.allocator.frameLimit)
    (apart : ∀ frame, first ≤ frame → frame < first + count →
      machine.Apart offset frame)
    (wrapped : Bool) (frame : Nat) :
    (machine.grant offset first count wrapped).table.bitmap.bit frame =
      if first ≤ frame ∧ frame < first + count then
        true
      else
        machine.table.bitmap.bit frame := by
  rw [table_grant placed inside apart]
  apply Bitmap.bit_putRange
  rw [bits_table]
  omega

/-- A free run below the end of memory is made of clear frames. -/
theorem ico_subset_clearFrames
    (inside : first + count ≤ machine.allocator.frameLimit)
    (free : machine.table.bitmap.FreeRun first count) :
    Finset.Ico first (first + count) ⊆ machine.clearFrames := by
  intro frame member
  have bounds := Finset.mem_Ico.mp member
  exact mem_clearFrames.mpr ⟨by omega, free frame bounds.1 bounds.2⟩

/-- The clear frames without those that were granted. -/
theorem clearFrames_grant
    (placed : machine.Placed offset)
    (covered :
      machine.allocator.frameLimit ≤ machine.allocator.storage.bits)
    (inside : first + count ≤ machine.allocator.frameLimit)
    (apart : ∀ frame, first ≤ frame → frame < first + count →
      machine.Apart offset frame)
    (wrapped : Bool) :
    (machine.grant offset first count wrapped).clearFrames =
      machine.clearFrames \ Finset.Ico first (first + count) := by
  ext frame
  rw [mem_clearFrames, bit_grant placed covered inside apart,
    Finset.mem_sdiff, mem_clearFrames, Finset.mem_Ico]
  split
  · rename_i member
    simp [member]
  · rename_i other
    simp only [other, not_false_eq_true, and_true]
    rfl

theorem balance_grant
    (placed : machine.Placed offset)
    (covered :
      machine.allocator.frameLimit ≤ machine.allocator.storage.bits)
    (inside : first + count ≤ machine.allocator.frameLimit)
    (apart : ∀ frame, first ≤ frame → frame < first + count →
      machine.Apart offset frame)
    (free : machine.table.bitmap.FreeRun first count) (wrapped : Bool) :
    (machine.grant offset first count wrapped).balance = machine.balance := by
  have wasClear := ico_subset_clearFrames inside free
  have counted := Finset.card_le_card wasClear
  have pages :
      (machine.grant offset first count wrapped).allocator.usedPages =
        machine.allocator.usedPages + count := rfl
  rw [Nat.card_Ico, Nat.add_sub_cancel_left] at counted
  rw [balance, balance, clearFrames_grant placed covered inside apart,
    Finset.card_sdiff_of_subset wasClear, Nat.card_Ico,
    Nat.add_sub_cancel_left, pages]
  omega

end Grant

section TakeBack

variable {address : PhysicalAddress} {count : Nat}

theorem bit_takeBack
    (placed : machine.Placed offset)
    (inside : address.frame + count ≤ machine.allocator.storage.bits)
    (frame : Nat) :
    (machine.takeBack address count).table.bitmap.bit frame =
      if frame ≠ 0 ∧ address.frame ≤ frame ∧
          frame < address.frame + count then
        false
      else
        machine.table.bitmap.bit frame := by
  have small : address.frame + count < wordCount :=
    Nat.lt_of_le_of_lt inside placed.bits_lt
  rw [table_takeBack placed.length_le, FrameTable.bit_giveBack,
    if_congr (FrameTable.names_iff small frame) rfl rfl]

/-- The frames of memory that a release makes free. -/
def recovered
    (machine : Machine) (address : PhysicalAddress) (count : Nat) :
    Finset Nat :=
  (machine.table.released address.frame count).filter fun frame =>
    frame < machine.allocator.frameLimit

theorem usedPages_takeBack
    (machine : Machine) (address : PhysicalAddress) (count : Nat) :
    (machine.takeBack address count).allocator.usedPages =
      machine.allocator.usedPages -
        (machine.table.released address.frame count).card := rfl

/-- The frames that become free were not free before. -/
theorem card_clearFrames_takeBack
    (small : machine.allocator.storage.length ≤ wordCount)
    (address : PhysicalAddress) (count : Nat) :
    (machine.takeBack address count).clearFrames.card =
      machine.clearFrames.card + (machine.recovered address count).card := by
  have cleared :
      (machine.takeBack address count).clearFrames =
        machine.clearFrames ∪ machine.recovered address count := by
    ext frame
    rw [mem_clearFrames, table_takeBack small, Finset.mem_union,
      mem_clearFrames, recovered, Finset.mem_filter, FrameTable.mem_released]
    change (frame < machine.allocator.frameLimit ∧ _) ↔ _
    by_cases named : FrameTable.Names address.frame count frame
    · rw [FrameTable.bit_giveBack_of_names _ named]
      cases machine.table.bitmap.bit frame <;> simp [named]
    · rw [FrameTable.bit_giveBack_of_not_names _ named]
      simp [named]
  have fresh :
      Disjoint machine.clearFrames (machine.recovered address count) := by
    rw [Finset.disjoint_left]
    intro frame clear member
    have used :=
      (FrameTable.mem_released.mp (Finset.mem_filter.mp member).1).2
    rw [(mem_clearFrames.mp clear).2] at used
    cases used
  rw [cleared, Finset.card_union_of_disjoint fresh]

/-- What a release of memory clears leaves the used pages. -/
theorem balance_takeBack
    (placed : machine.Placed offset)
    (inside : address.frame + count ≤ machine.allocator.frameLimit)
    (room :
      (machine.takeBack address count).clearFrames.card ≤ machine.balance) :
    (machine.takeBack address count).balance = machine.balance := by
  have recovered :
      machine.recovered address count =
        machine.table.released address.frame count := by
    apply Finset.filter_true_of_mem
    intro frame member
    have upper := (FrameTable.mem_released.mp member).1.2
    unfold FrameTable.runStop at upper
    omega
  have cleared := card_clearFrames_takeBack placed.length_le address count
  rw [recovered] at cleared
  rw [balance, usedPages_takeBack]
  unfold balance at room ⊢
  omega

end TakeBack

end Machine

end BootMemory
