import BootMemory.Frames.Allocator
import BootMemory.Proofs.DirectMap
import BootMemory.Proofs.Frames.Release
import BootMemory.Proofs.Memory

/-!
# Requests on a machine

The bitmap of the allocator is part of the memory that the allocator zeroes, so
a request must not be granted frames that hold the bitmap.  `Machine.Placed`
says where the direct map puts both, `Machine.Apart` that a frame shares no
byte with the bitmap, and `Machine.RunsGrantable` that every frame a search can
find is of that kind.

On such a machine `allocate_outcome` describes every request completely: the run
that is granted and the machine afterwards, or the refusal.
-/

namespace BootMemory

/-! ## The stored bitmap -/

namespace Storage

theorem load_store
    {storage : Storage} {bitmap : Bitmap} (memory : Memory)
    (bits : bitmap.bits = storage.bits)
    (size : bitmap.bytes.size = storage.length)
    (small : storage.length ≤ wordCount) :
    storage.load (storage.store bitmap memory) = bitmap := by
  apply Bitmap.ext_bytes
  · simp only [load, store, ← size]
    exact Memory.readRange_write memory _ _ (by omega)
  · rw [bits_load, bits]

/-- Storing the bitmap that memory holds changes nothing. -/
theorem store_load (storage : Storage) (memory : Memory) :
    storage.store (storage.load memory) memory = memory :=
  Memory.write_readRange memory _ _

theorem store_store
    {storage : Storage} {first second : Bitmap} (memory : Memory)
    (size : first.bytes.size = second.bytes.size) :
    storage.store second (storage.store first memory) =
      storage.store second memory := by
  apply Memory.ext_read
  intro address
  simp only [store, Memory.read_write, size]
  split <;> rfl

/-- The stored bitmap depends on the bytes of the storage alone. -/
theorem load_congr
    {storage : Storage} {left right : Memory}
    (same : ∀ address,
      Memory.distance storage.base.value address < storage.length →
        left.read address = right.read address) :
    storage.load left = storage.load right := by
  have bytes := Memory.readRange_congr same
  simp only [load, bytes]

end Storage

/-- Zeros are written from the address on that the mapper leads to. -/
theorem Mapper.zeroFill_of_reach
    {mapper : Mapper} {profile : Profile} {address : PhysicalAddress}
    {reached : VirtualAddress}
    (translated : mapper.reach profile address = .ok reached)
    (memory : Memory) (length : Nat) :
    mapper.zeroFill profile memory address length =
      .ok (memory.fill reached.value length 0) := by
  simp only [zeroFill, fill, translated, bind, Except.bind, pure, Except.pure]

namespace Machine

variable {offset : UInt64} {machine : Machine}

theorem toNat_pos_of_ne_zero {size : UInt64} (nonzero : size ≠ 0) :
    0 < size.toNat := by
  apply Nat.pos_of_ne_zero
  intro zero
  exact nonzero (UInt64.toNat_inj.mp zero)

/-! ## Frames and the bitmap in the direct map -/

/-- The bitmap and all frames below the end of memory are reached directly. -/
structure Placed (offset : UInt64) (machine : Machine) : Prop where
  mapper_eq : machine.allocator.mapper = .direct ⟨offset⟩
  offset_le :
    offset.toNat ≤ machine.allocator.storage.base.value.toNat
  storage_le :
    machine.allocator.storage.base.value.toNat +
      machine.allocator.storage.length ≤ wordCount
  frames_le : machine.allocator.frameLimit * frameSize ≤ offset.toNat
  reach_le :
    offset.toNat + machine.allocator.frameLimit * frameSize ≤ wordCount
  bits_lt : machine.allocator.storage.bits < wordCount

/-- The physical address of the bitmap. -/
def place (offset : UInt64) (machine : Machine) : Nat :=
  machine.allocator.storage.base.value.toNat - offset.toNat

/-- A frame shares no byte with the bitmap. -/
def Apart (offset : UInt64) (machine : Machine) (frame : Nat) : Prop :=
  (frame + 1) * frameSize ≤ machine.place offset ∨
    machine.place offset + machine.allocator.storage.length ≤
      frame * frameSize

/-- Every run that a search can find may be zeroed and counted. -/
structure RunsGrantable (offset : UInt64) (machine : Machine) : Prop where
  placed : machine.Placed offset
  cursor_le : machine.allocator.cursor ≤ machine.table.scanLimit
  apart : ∀ frame, frame < machine.table.scanLimit →
    machine.table.bitmap.bit frame = false → machine.Apart offset frame
  room :
    machine.allocator.usedPages + machine.allocator.frameLimit < wordCount

@[simp]
theorem bits_table (machine : Machine) :
    machine.table.bitmap.bits = machine.allocator.storage.bits := rfl

/-- Replacing the account of frames is seen by whoever reads it again. -/
theorem table_withTable
    {table : FrameTable} {machine : Machine}
    (bits : table.bitmap.bits = machine.allocator.storage.bits)
    (size : table.bitmap.bytes.size = machine.allocator.storage.length)
    (limit : table.frameLimit = machine.allocator.frameLimit)
    (small : machine.allocator.storage.length ≤ wordCount) :
    (machine.withTable table).table = table := by
  have loaded := Storage.load_store machine.memory bits size small
  cases table
  simp_all [Machine.table, withTable]

theorem withTable_table (machine : Machine) :
    machine.withTable machine.table = machine := by
  have stored :=
    Storage.store_load machine.allocator.storage machine.memory
  cases machine
  simp_all [Machine.table, withTable]

/-! ## Memory through the direct map -/

/-- The address through which a byte of physical memory is reached. -/
def byteAt (offset : UInt64) (byte : Nat) : UInt64 :=
  UInt64.ofNat (byte + offset.toNat)

theorem toNat_byteAt
    (placed : machine.Placed offset) {byte : Nat}
    (inside : byte < machine.allocator.frameLimit * frameSize) :
    (byteAt offset byte).toNat = offset.toNat + byte := by
  have high := placed.reach_le
  simp only [byteAt, UInt64.toNat_ofNat', wordCount] at high ⊢
  omega

/-- Memory below the end of memory is reached at a fixed distance. -/
theorem Placed.reach_eq
    (placed : machine.Placed offset) (profile : Profile)
    {address : PhysicalAddress}
    (inside :
      address.value.toNat < machine.allocator.frameLimit * frameSize) :
    machine.allocator.mapper.reach profile address =
      .ok ⟨byteAt offset address.value.toNat⟩ := by
  have low := placed.frames_le
  have high := placed.reach_le
  have below : address.value.toNat < offset.toNat := by omega
  have room : address.value.toNat + offset.toNat < wordCount := by omega
  rw [placed.mapper_eq]
  exact @DirectMap.toVirtual_of_lt ⟨offset⟩ profile address below room

/-- Frames below the end of memory have an address. -/
theorem Placed.lt_frameCount
    (placed : machine.Placed offset) {frame : Nat}
    (inside : frame < machine.allocator.frameLimit) : frame < frameCount := by
  have low := placed.frames_le
  have offsetBound := offset.toNat_lt
  simp only [frameSize, frameCount] at low ⊢
  omega

/-- The addresses of frames below the end of memory do not wrap around. -/
theorem Placed.toNat_ofFrame
    (placed : machine.Placed offset) {first : Nat}
    (inside : first < machine.allocator.frameLimit) :
    (Address.ofFrame first).value.toNat = first * frameSize :=
  Address.toNat_ofFrame (placed.lt_frameCount inside)

/-! ## Zeroing a run -/

/-- The address through which a frame is zeroed. -/
def reached (offset : UInt64) (first : Nat) : UInt64 :=
  byteAt offset (first * frameSize)

theorem toNat_reached
    (placed : machine.Placed offset) {first : Nat}
    (inside : first < machine.allocator.frameLimit) :
    (reached offset first).toNat = offset.toNat + first * frameSize := by
  apply toNat_byteAt placed
  simp only [frameSize]
  omega

theorem Placed.reach_frame
    (placed : machine.Placed offset) (profile : Profile)
    {first : Nat} (inside : first < machine.allocator.frameLimit) :
    machine.allocator.mapper.reach profile (Address.ofFrame first) =
      .ok ⟨reached offset first⟩ := by
  have value := placed.toNat_ofFrame inside
  have below :
      (Address.ofFrame first).value.toNat <
        machine.allocator.frameLimit * frameSize := by
    rw [value]
    simp only [frameSize]
    omega
  rw [placed.reach_eq profile below, value]
  rfl

/-- Zeroing frames apart from the bitmap leaves the bitmap alone. -/
theorem load_fill_run
    (placed : machine.Placed offset) {first count : Nat}
    (inside : first + count ≤ machine.allocator.frameLimit)
    (apart : ∀ frame, first ≤ frame → frame < first + count →
      machine.Apart offset frame)
    (memory : Memory) (byte : UInt8) :
    machine.allocator.storage.load
        (memory.fill (reached offset first) (count * frameSize) byte) =
      machine.allocator.storage.load memory := by
  apply Storage.load_congr
  intro address stored
  rw [Memory.read_fill]
  have outside :
      ¬ Memory.distance (reached offset first) address <
        count * frameSize := by
    intro zeroed
    have nonempty : 0 < count := by
      by_contra none
      have zero : count = 0 := by omega
      simp [zero] at zeroed
    have start := toNat_reached placed (by omega : first < _)
    have high := placed.reach_le
    have above := placed.offset_le
    rw [Memory.distance_lt_iff placed.storage_le] at stored
    rw [Memory.distance_lt_iff
      (by rw [start]; simp only [frameSize] at high ⊢; omega), start] at zeroed
    have frameApart :=
      apart ((address.toNat - offset.toNat) / frameSize)
        (by simp only [frameSize] at zeroed ⊢; omega)
        (by simp only [frameSize] at zeroed ⊢; omega)
    simp only [Apart, place, frameSize] at frameApart zeroed
    omega
  rw [if_neg outside]

/-! ## Granting and refusing -/

/-- The events of a search that went back to frame zero. -/
def wrapEvents (wrapped : Bool) (count : Nat) : Log :=
  if wrapped then [.searchWrapped count] else []

/-- The machine after a run was handed out that is zeroed from an address on. -/
def grantAt
    (machine : Machine) (address : UInt64) (first count : Nat)
    (wrapped : Bool) : Machine where
  allocator :=
    { machine.allocator with
      usedPages := machine.allocator.usedPages + count
      cursor := first + count }
  memory :=
    (machine.allocator.storage.store
      (machine.table.bitmap.putRange true first count) machine.memory).fill
        address (count * frameSize) 0
  log :=
    machine.log ++ wrapEvents wrapped count ++
      [.allocated count (Address.ofFrame first)]

/-- The machine after a run was handed out through the direct map. -/
def grant
    (offset : UInt64) (machine : Machine) (first count : Nat)
    (wrapped : Bool) : Machine :=
  machine.grantAt (reached offset first) first count wrapped

/-- The machine after a request was refused. -/
def refuse (machine : Machine) (count size : Nat) : Machine :=
  { machine with
    log := machine.log ++ [.searchWrapped count] ++ [.outOfMemory count size] }

@[simp]
theorem table_refuse (machine : Machine) (count size : Nat) :
    (machine.refuse count size).table = machine.table := rfl

/-- A granted run is all that changes in the account of frames. -/
theorem table_grantAt
    (small : machine.allocator.storage.length ≤ wordCount)
    {address : UInt64} {first count : Nat}
    (kept : ∀ memory,
      machine.allocator.storage.load
          (Memory.fill memory address (count * frameSize) 0) =
        machine.allocator.storage.load memory)
    (wrapped : Bool) :
    (machine.grantAt address first count wrapped).table =
      { machine.table.claim first count with
        usedPages := machine.allocator.usedPages + count } := by
  have loaded :=
    Storage.load_store machine.memory
      ((Bitmap.bits_putRange machine.table.bitmap true first count).trans
        (bits_table machine))
      (by simp [Machine.table]) small
  unfold grantAt
  unfold Machine.table FrameTable.claim at *
  simp only [kept, loaded]

theorem table_grant
    (placed : machine.Placed offset) {first count : Nat}
    (inside : first + count ≤ machine.allocator.frameLimit)
    (apart : ∀ frame, first ≤ frame → frame < first + count →
      machine.Apart offset frame)
    (wrapped : Bool) :
    (machine.grant offset first count wrapped).table =
      { machine.table.claim first count with
        usedPages := machine.allocator.usedPages + count } := by
  have small : machine.allocator.storage.length ≤ wordCount := by
    have bound := placed.storage_le
    omega
  exact
    table_grantAt small
      (fun memory => load_fill_run placed inside apart memory 0) wrapped

theorem bind_recordWrap
    {Value : Type} (wrapped : Bool) (count : Nat)
    (next : Action Machine Value) (machine : Machine) :
    (if wrapped = true then do
        record (.searchWrapped count)
        next
      else
        next) machine =
      next
        { machine with log := machine.log ++ wrapEvents wrapped count } := by
  cases wrapped
  · simp [wrapEvents]
  · rfl

theorem onTable_claimRun_some
    {profile : Profile} {first count : Nat} {wrapped : Bool}
    (claimed :
      FrameTable.claimRun profile count machine.table =
        .ok ⟨some first, wrapped⟩ (machine.table.claim first count)) :
    onTable (FrameTable.claimRun profile count) machine =
      .ok ⟨some first, wrapped⟩
        (machine.withTable (machine.table.claim first count)) :=
  Action.focus_of_ok claimed

theorem zeroFill_of_ok
    {profile : Profile} {address : PhysicalAddress} {length : Nat}
    {memory : Memory}
    (filled :
      machine.allocator.mapper.zeroFill profile machine.memory address length =
        .ok memory) :
    zeroFill profile address length machine =
      .ok () { machine with memory } := by
  unfold zeroFill
  rw [Action.bind_get, Action.bind_lift_of_ok filled]
  rfl

theorem addUsed_of_lt
    (profile : Profile) (machine : Machine) {pages : Nat}
    (room : machine.allocator.usedPages + pages < wordCount) :
    addUsed profile pages machine =
      .ok ()
        { machine with
          allocator :=
            { machine.allocator with
              usedPages := machine.allocator.usedPages + pages } } := by
  unfold addUsed
  rw [Action.bind_get, Action.bind_lift_of_ok (profile.add_of_lt room)]
  rfl

/-- A claimed run is zeroed, counted and reported. -/
theorem serve_of_ok
    {machine : Machine} {profile : Profile} {count length : Nat}
    {address : PhysicalAddress} {memory : Memory}
    (sized : profile.mul count frameSize = .ok length)
    (filled :
      machine.allocator.mapper.zeroFill profile machine.memory address length =
        .ok memory)
    (room : machine.allocator.usedPages + count < wordCount) :
    (do
      let length ← profile.mul count frameSize
      zeroFill profile address length
      addUsed profile count
      record (.allocated count address)
      return .ok address :
        Action Machine (Except AllocError PhysicalAddress)) machine =
      .ok (.ok address)
        { allocator :=
            { machine.allocator with
              usedPages := machine.allocator.usedPages + count }
          memory
          log := machine.log ++ [.allocated count address] } := by
  have counted := addUsed_of_lt profile { machine with memory } room
  rw [Action.bind_lift_of_ok sized,
    Action.bind_of_ok (zeroFill_of_ok filled), Action.bind_of_ok counted]
  rfl

/-- A request whose search succeeds is granted, if the mapper reaches the run. -/
theorem allocate_of_reached
    {profile : Profile} {size : UInt64} (nonzero : size ≠ 0) {first : Nat}
    {wrapped : Bool} {address : VirtualAddress}
    (reached :
      machine.allocator.mapper.reach profile (Address.ofFrame first) =
        .ok address)
    (short : framesFor size.toNat * frameSize < wordCount)
    (room :
      machine.allocator.usedPages + framesFor size.toNat < wordCount)
    (claimed :
      FrameTable.claimRun profile (framesFor size.toNat) machine.table =
        .ok ⟨some first, wrapped⟩
          (machine.table.claim first (framesFor size.toNat))) :
    machine.allocate profile size =
      .ok (.ok (Address.ofFrame first))
        (machine.grantAt address.value first (framesFor size.toNat)
          wrapped) := by
  have length :
      profile.mul (framesFor size.toNat) frameSize =
        .ok (framesFor size.toNat * frameSize) := profile.mul_of_lt short
  have zeroed :=
    Mapper.zeroFill_of_reach reached
      (machine.allocator.storage.store
        (machine.table.bitmap.putRange true first (framesFor size.toNat))
        machine.memory)
      (framesFor size.toNat * frameSize)
  unfold allocate
  rw [if_neg nonzero]
  dsimp only
  rw [Action.bind_of_ok (onTable_claimRun_some claimed)]
  dsimp only
  rw [bind_recordWrap]
  exact serve_of_ok length zeroed room

theorem allocate_of_claimed
    (placed : machine.Placed offset) {profile : Profile} {size : UInt64}
    (nonzero : size ≠ 0) {first : Nat} {wrapped : Bool}
    (inside :
      first + framesFor size.toNat ≤ machine.allocator.frameLimit)
    (room :
      machine.allocator.usedPages + framesFor size.toNat < wordCount)
    (claimed :
      FrameTable.claimRun profile (framesFor size.toNat) machine.table =
        .ok ⟨some first, wrapped⟩
          (machine.table.claim first (framesFor size.toNat))) :
    machine.allocate profile size =
      .ok (.ok (Address.ofFrame first))
        (machine.grant offset first (framesFor size.toNat) wrapped) := by
  have some := framesFor_pos (toNat_pos_of_ne_zero nonzero)
  have low := placed.frames_le
  have offsetBound := offset.toNat_lt
  exact
    allocate_of_reached nonzero
      (placed.reach_frame profile (by omega : first < _))
      (by simp only [frameSize, wordCount] at low ⊢; omega) room claimed

/-- A request whose search fails is refused, and nothing but the log changes. -/
theorem allocate_of_missed
    {profile : Profile} {size : UInt64} (nonzero : size ≠ 0)
    (missed :
      FrameTable.claimRun profile (framesFor size.toNat) machine.table =
        .ok ⟨none, true⟩ machine.table) :
    machine.allocate profile size =
      .ok (.error (.outOfMemory (framesFor size.toNat)))
        (machine.refuse (framesFor size.toNat) size.toNat) := by
  have ran :
      onTable (FrameTable.claimRun profile (framesFor size.toNat)) machine =
        .ok ⟨none, true⟩ (machine.withTable machine.table) :=
    Action.focus_of_ok missed
  rw [withTable_table] at ran
  unfold allocate
  rw [if_neg nonzero]
  dsimp only
  rw [Action.bind_of_ok ran]
  rfl

/-- A request for nothing yields the null address and touches nothing. -/
theorem allocate_zero (profile : Profile) (machine : Machine) :
    machine.allocate profile 0 = .ok (.ok .null) machine := rfl

theorem scanLimit_le (machine : Machine) :
    machine.table.scanLimit ≤ machine.allocator.frameLimit :=
  Nat.min_le_left _ _

/--
Every request is granted the first run from the cursor on, or else the first run
below the cursor, or else it is refused.
-/
theorem allocate_outcome
    (grantable : machine.RunsGrantable offset) (profile : Profile)
    {size : UInt64} (nonzero : size ≠ 0) :
    (∃ first,
      machine.table.bitmap.FirstRun (framesFor size.toNat)
          machine.allocator.cursor machine.table.scanLimit first ∧
        machine.allocate profile size =
          .ok (.ok (Address.ofFrame first))
            (machine.grant offset first (framesFor size.toNat) false)) ∨
    (machine.table.bitmap.NoRun (framesFor size.toNat)
        machine.allocator.cursor machine.table.scanLimit ∧
      ((∃ first,
        machine.table.bitmap.FirstRun (framesFor size.toNat)
            0 machine.allocator.cursor first ∧
          machine.allocate profile size =
            .ok (.ok (Address.ofFrame first))
              (machine.grant offset first (framesFor size.toNat) true)) ∨
      (machine.table.bitmap.NoRun (framesFor size.toNat)
          0 machine.allocator.cursor ∧
        machine.allocate profile size =
          .ok (.error (.outOfMemory (framesFor size.toNat)))
            (machine.refuse (framesFor size.toNat) size.toNat)))) := by
  have positive := framesFor_pos (toNat_pos_of_ne_zero nonzero)
  have limit := scanLimit_le machine
  have ordered := grantable.cursor_le
  have room := grantable.room
  have outcome :=
    FrameTable.claimRun_outcome profile machine.table positive ordered
      grantable.placed.bits_lt
  rcases outcome with
    ⟨first, found, claimed⟩ |
      ⟨missing, ⟨first, found, claimed⟩ | ⟨absent, missed⟩⟩
  · have inside := found.le_stop
    exact Or.inl
      ⟨first, found,
        allocate_of_claimed grantable.placed nonzero (by omega) (by omega)
          claimed⟩
  · have inside := found.le_stop
    have below : machine.table.cursor ≤ machine.table.scanLimit := ordered
    exact Or.inr
      ⟨missing,
        Or.inl
          ⟨first, found,
            allocate_of_claimed grantable.placed nonzero (by omega) (by omega)
              claimed⟩⟩
  · exact Or.inr
      ⟨missing, Or.inr ⟨absent, allocate_of_missed nonzero missed⟩⟩

/-- Where runs are grantable every request is answered. -/
theorem RunsGrantable.answers
    (grantable : machine.RunsGrantable offset) (profile : Profile)
    (size : UInt64) :
    ∃ result later, machine.allocate profile size = .ok result later := by
  by_cases zero : size = 0
  · rw [zero]
    exact ⟨_, _, allocate_zero profile machine⟩
  · rcases allocate_outcome grantable profile zero with
      ⟨first, -, granted⟩ | ⟨-, ⟨first, -, granted⟩ | ⟨-, refused⟩⟩
    · exact ⟨_, _, granted⟩
    · exact ⟨_, _, granted⟩
    · exact ⟨_, _, refused⟩

/-- A granted request has found a free run below the end of the search. -/
theorem RunsGrantable.granted_run
    (grantable : machine.RunsGrantable offset) {profile : Profile}
    {size : UInt64} {address : PhysicalAddress} {later : Machine}
    (nonzero : size ≠ 0)
    (ran : machine.allocate profile size = .ok (.ok address) later) :
    ∃ first wrapped,
      address = Address.ofFrame first ∧
        later = machine.grant offset first (framesFor size.toNat) wrapped ∧
        first + framesFor size.toNat ≤ machine.table.scanLimit ∧
        machine.table.bitmap.FreeRun first (framesFor size.toNat) := by
  have cursor := grantable.cursor_le
  rcases allocate_outcome grantable profile nonzero with
    ⟨first, found, granted⟩ |
      ⟨-, ⟨first, found, granted⟩ | ⟨-, refused⟩⟩
  · rw [granted] at ran
    cases ran
    exact ⟨first, false, rfl, rfl, found.le_stop, found.free⟩
  · rw [granted] at ran
    cases ran
    exact
      ⟨first, true, rfl, rfl, Nat.le_trans found.le_stop cursor, found.free⟩
  · rw [refused] at ran
    cases ran

/-- A request that is not granted changes nothing but the log. -/
theorem RunsGrantable.unserved_run
    (grantable : machine.RunsGrantable offset) {profile : Profile}
    {size : UInt64} {result : Except AllocError PhysicalAddress}
    {later : Machine}
    (nothing : size = 0 ∨ ∃ refusal, result = .error refusal)
    (ran : machine.allocate profile size = .ok result later) :
    ∃ log, later = { machine with log } := by
  by_cases zero : size = 0
  · rw [zero, allocate_zero] at ran
    cases ran
    exact ⟨machine.log, rfl⟩
  · rcases nothing with isZero | ⟨refusal, rfl⟩
    · exact absurd isZero zero
    · rcases allocate_outcome grantable profile zero with
        ⟨first, -, granted⟩ | ⟨-, ⟨first, -, granted⟩ | ⟨-, refused⟩⟩
      · rw [granted] at ran
        cases ran
      · rw [granted] at ran
        cases ran
      · rw [refused] at ran
        cases ran
        exact ⟨_, rfl⟩

/-- A request grants a free run, or changes nothing but the log. -/
theorem RunsGrantable.request_run
    (grantable : machine.RunsGrantable offset) {profile : Profile}
    {size : UInt64} {result : Except AllocError PhysicalAddress}
    {later : Machine}
    (ran : machine.allocate profile size = .ok result later) :
    (∃ log, later = { machine with log }) ∨
      ∃ first wrapped,
        later = machine.grant offset first (framesFor size.toNat) wrapped ∧
          first + framesFor size.toNat ≤ machine.table.scanLimit ∧
            machine.table.bitmap.FreeRun first (framesFor size.toNat) := by
  by_cases nothing : size = 0 ∨ ∃ refusal, result = .error refusal
  · exact .inl (grantable.unserved_run nothing ran)
  · push Not at nothing
    cases result with
    | error refusal => exact absurd rfl (nothing.2 refusal)
    | ok address =>
        rcases grantable.granted_run nothing.1 ran with
          ⟨first, wrapped, -, granted, inside, free⟩
        exact .inr ⟨first, wrapped, granted, inside, free⟩

/-! ## Taking back -/

/-- The machine after frames were given back. -/
def takeBack
    (machine : Machine) (address : PhysicalAddress) (count : Nat) : Machine :=
  { machine.withTable (machine.table.giveBack address.frame count) with
    log := machine.log ++ [.freed count address] }

theorem cursor_takeBack
    (machine : Machine) (address : PhysicalAddress) (count : Nat) :
    (machine.takeBack address count).allocator.cursor =
      if address.frame < machine.allocator.cursor then
        address.frame
      else
        machine.allocator.cursor := rfl

theorem table_takeBack
    (small : machine.allocator.storage.length ≤ wordCount)
    (address : PhysicalAddress) (count : Nat) :
    (machine.takeBack address count).table =
      machine.table.giveBack address.frame count :=
  table_withTable (by simp [FrameTable.giveBack])
    (by simp [FrameTable.giveBack, Machine.table]) rfl small

theorem free_ignored
    (profile : Profile) (machine : Machine) {address : PhysicalAddress}
    {size : UInt64} (ignored : address = Address.null ∨ size = 0) :
    machine.free profile address size = .ok () machine := by
  have skipped : (address.isNull || size == 0) = true := by
    simpa using ignored
  unfold free
  rw [if_pos skipped]
  rfl

theorem free_of_assert
    {profile : Profile} {address : PhysicalAddress} {size : UInt64}
    (named : address ≠ Address.null) (nonzero : size ≠ 0)
    (bits : machine.allocator.storage.bits < wordCount)
    (asserted :
      machine.table.assertReleasable profile address.frame
        (framesFor size.toNat) = .ok ()) :
    machine.free profile address size =
      .ok () (machine.takeBack address (framesFor size.toNat)) := by
  have performed : ¬ (address.isNull || size == 0) = true := by
    simpa using ⟨named, nonzero⟩
  have ran :
      onTable
          (FrameTable.release profile address.frame (framesFor size.toNat))
          machine =
        .ok ()
          (machine.withTable
            (machine.table.giveBack address.frame (framesFor size.toNat))) :=
    Action.focus_of_ok (FrameTable.release_of_assert bits asserted)
  unfold free
  rw [if_neg performed]
  exact Action.bind_of_ok ran

/-- A release that an assertion stops leaves the machine as it was. -/
theorem free_of_assert_error
    {profile : Profile} {address : PhysicalAddress} {size : UInt64}
    {fault : Fault}
    (named : address ≠ Address.null) (nonzero : size ≠ 0)
    (asserted :
      machine.table.assertReleasable profile address.frame
        (framesFor size.toNat) = .error fault) :
    machine.free profile address size = .error fault machine := by
  have performed : ¬ (address.isNull || size == 0) = true := by
    simpa using ⟨named, nonzero⟩
  have ran :
      onTable
          (FrameTable.release profile address.frame (framesFor size.toNat))
          machine =
        .error fault (machine.withTable machine.table) :=
    Action.focus_of_error (FrameTable.release_of_assert_error asserted)
  rw [withTable_table] at ran
  unfold free
  rw [if_neg performed]
  exact Action.bind_of_error ran

/-- What a release returns with, if the profile accepts the frames. -/
theorem free_ok_iff
    {profile : Profile} {address : PhysicalAddress} {size : UInt64}
    {later : Machine}
    (named : address ≠ Address.null) (nonzero : size ≠ 0)
    (bits : machine.allocator.storage.bits < wordCount) :
    machine.free profile address size = .ok () later ↔
      machine.table.Accepts profile address.frame (framesFor size.toNat) ∧
        later = machine.takeBack address (framesFor size.toNat) := by
  rw [← FrameTable.assertReleasable_iff address.frame_lt_wordCount]
  cases asserted :
      machine.table.assertReleasable profile address.frame
        (framesFor size.toNat) with
  | ok =>
      rw [free_of_assert named nonzero bits asserted]
      constructor
      · rintro ⟨⟩
        exact ⟨rfl, rfl⟩
      · rintro ⟨-, rfl⟩
        rfl
  | error fault =>
      rw [free_of_assert_error named nonzero asserted]
      constructor
      · rintro ⟨⟩
      · rintro ⟨⟨⟩, -⟩

/-- A release that is not stopped has taken the frames back. -/
theorem free_ok
    {profile : Profile} {address : PhysicalAddress} {size : UInt64}
    {later : Machine}
    (named : address ≠ Address.null) (nonzero : size ≠ 0)
    (bits : machine.allocator.storage.bits < wordCount)
    (ran : machine.free profile address size = .ok () later) :
    later = machine.takeBack address (framesFor size.toNat) :=
  ((free_ok_iff named nonzero bits).mp ran).2

/-- A release that returns was ignored, or has taken the frames back. -/
theorem free_run
    {profile : Profile} {address : PhysicalAddress} {size : UInt64}
    {later : Machine} (bits : machine.allocator.storage.bits < wordCount)
    (ran : machine.free profile address size = .ok () later) :
    ((address = Address.null ∨ size = 0) ∧ later = machine) ∨
      (address ≠ Address.null ∧ size ≠ 0 ∧
        later = machine.takeBack address (framesFor size.toNat)) := by
  by_cases ignored : address = Address.null ∨ size = 0
  · rw [free_ignored profile machine ignored] at ran
    cases ran
    exact .inl ⟨ignored, rfl⟩
  · push Not at ignored
    exact .inr ⟨ignored.1, ignored.2, free_ok ignored.1 ignored.2 bits ran⟩

/-- The release profile takes back whatever it is given. -/
theorem free_release_returns
    (bits : machine.allocator.storage.bits < wordCount)
    (address : PhysicalAddress) (size : UInt64) :
    ∃ later, machine.free .release address size = .ok () later := by
  by_cases ignored : address = Address.null ∨ size = 0
  · exact ⟨machine, free_ignored .release machine ignored⟩
  · push Not at ignored
    exact ⟨_, (free_ok_iff ignored.1 ignored.2 bits).mpr ⟨.inl rfl, rfl⟩⟩

/-- No run of frames that a release names reaches the end of the words. -/
theorem runStop_eq (address : PhysicalAddress) (size : UInt64) :
    FrameTable.runStop address.frame (framesFor size.toNat) =
      address.frame + framesFor size.toNat := by
  have first := address.frame_lt
  have bound := size.toNat_lt
  simp only [FrameTable.runStop, framesFor, frameSize, wordCount,
    frameCount] at first ⊢
  omega

/-- The debug profile takes back frames that have a set bit, and no others. -/
theorem releasable_iff
    (machine : Machine) (address : PhysicalAddress) {size : UInt64}
    (nonzero : size ≠ 0) :
    machine.table.Releasable address.frame (framesFor size.toNat) ↔
      ∀ frame, address.frame ≤ frame →
        frame < address.frame + framesFor size.toNat →
          frame ≠ 0 ∧ frame < machine.allocator.storage.bits ∧
            machine.table.bitmap.bit frame = true := by
  have positive := framesFor_pos (toNat_pos_of_ne_zero nonzero)
  have stop := runStop_eq address size
  constructor
  · intro releasable frame lower upper
    have inside := releasable.inside
    have first := releasable.nonzero
    rw [stop, bits_table] at inside
    refine ⟨by omega, by omega, releasable.held frame lower ?_⟩
    rw [stop]
    exact upper
  · intro held
    have first := held address.frame (Nat.le_refl _) (by omega)
    have last :=
      held (address.frame + framesFor size.toNat - 1) (by omega) (by omega)
    refine ⟨?_, first.1, ?_⟩
    · rw [stop, bits_table]
      omega
    · intro frame lower upper
      rw [stop] at upper
      exact (held frame lower upper).2.2

/-- Frames that are in use and inside the bitmap are taken back. -/
theorem free_of_held
    (profile : Profile) {address : PhysicalAddress} {size : UInt64}
    (named : address ≠ Address.null) (nonzero : size ≠ 0)
    (bits : machine.allocator.storage.bits < wordCount)
    (held : ∀ frame, address.frame ≤ frame →
      frame < address.frame + framesFor size.toNat →
        frame ≠ 0 ∧ frame < machine.allocator.storage.bits ∧
          machine.table.bitmap.bit frame = true) :
    machine.free profile address size =
      .ok () (machine.takeBack address (framesFor size.toNat)) := by
  rw [free_ok_iff named nonzero bits]
  exact ⟨.inr ((releasable_iff machine address nonzero).mpr held), rfl⟩

/-- In the debug profile any other frame stops the release. -/
theorem free_debug_of_unheld
    {address : PhysicalAddress} {size : UInt64}
    (named : address ≠ Address.null) (nonzero : size ≠ 0)
    (unheld : ¬ ∀ frame, address.frame ≤ frame →
      frame < address.frame + framesFor size.toNat →
        frame ≠ 0 ∧ frame < machine.allocator.storage.bits ∧
          machine.table.bitmap.bit frame = true) :
    ∃ fault, machine.free .debug address size = .error fault machine := by
  rw [← releasable_iff machine address nonzero] at unheld
  rcases
    FrameTable.assertReleasable_debug_of_not address.frame_lt_wordCount unheld
    with ⟨fault, stopped⟩
  exact ⟨fault, free_of_assert_error named nonzero stopped⟩

/-! ## Accessible memory -/

section Accessible

variable {profile : Profile} {later final : Machine} {size : UInt64}
  {address : PhysicalAddress} {accessible : VirtualAddress} {fault : Fault}

theorem expose_null (profile : Profile) (machine : Machine) :
    machine.expose profile Address.null = .ok Address.null machine := rfl

theorem expose_of_ok
    (named : address ≠ Address.null)
    (translated : machine.toAccessible profile address = .ok accessible) :
    machine.expose profile address = .ok accessible machine := by
  unfold expose
  rw [if_neg (by rwa [Address.isNull_iff]), Action.bind_get, translated]
  rfl

theorem expose_of_error
    (named : address ≠ Address.null)
    (stopped : machine.toAccessible profile address = .error fault) :
    machine.expose profile address = .error fault machine := by
  unfold expose
  rw [if_neg (by rwa [Address.isNull_iff]), Action.bind_get, stopped]
  rfl

/-- Memory with an accessible address is handed out. -/
theorem allocateAccessible_of_exposed
    (served : machine.allocate profile size = .ok (.ok address) later)
    (exposed : later.expose profile address = .ok accessible later)
    (proper : accessible ≠ Address.null) :
    machine.allocateAccessible profile size = .ok (.ok accessible) later := by
  unfold allocateAccessible
  rw [Action.bind_of_ok served]
  dsimp only
  rw [Action.bind_of_ok exposed, if_neg (by rwa [Address.isNull_iff])]
  rfl

/-- Memory without one is given back. -/
theorem allocateAccessible_of_concealed
    (served : machine.allocate profile size = .ok (.ok address) later)
    (concealed : later.expose profile address = .ok Address.null later)
    (freed : later.free profile address size = .ok () final) :
    machine.allocateAccessible profile size =
      .ok (.error (.notAccessible address)) final := by
  unfold allocateAccessible
  rw [Action.bind_of_ok served]
  dsimp only
  rw [Action.bind_of_ok concealed, if_pos ((Address.isNull_iff _).mpr rfl),
    Action.bind_of_ok freed]
  rfl

theorem allocateAccessible_of_refused
    {refusal : AllocError}
    (refused : machine.allocate profile size = .ok (.error refusal) later) :
    machine.allocateAccessible profile size =
      .ok (.error refusal) later := by
  unfold allocateAccessible
  rw [Action.bind_of_ok refused]
  rfl

theorem allocateAccessible_of_stopped
    (served : machine.allocate profile size = .ok (.ok address) later)
    (stopped : later.expose profile address = .error fault later) :
    machine.allocateAccessible profile size = .error fault later := by
  unfold allocateAccessible
  rw [Action.bind_of_ok served]
  dsimp only
  rw [Action.bind_of_error stopped]

/-- A request for nothing is granted the null address, which has none. -/
theorem allocateAccessible_zero (profile : Profile) (machine : Machine) :
    machine.allocateAccessible profile 0 =
      .ok (.error (.notAccessible Address.null)) machine :=
  allocateAccessible_of_concealed (allocate_zero profile machine)
    (expose_null profile machine) (free_ignored profile machine (.inl rfl))

/-- A release by an accessible address is one by the address behind it. -/
theorem freeAccessible_of_lowered
    (lowered : machine.fromAccessible profile accessible = .ok address)
    (size : UInt64) :
    machine.freeAccessible profile accessible size =
      machine.free profile address size := by
  unfold freeAccessible
  rw [Action.bind_get, Action.bind_lift_of_ok lowered]

end Accessible

end Machine

end BootMemory
