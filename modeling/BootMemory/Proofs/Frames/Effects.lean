import BootMemory.Proofs.Frames.Exclusive
import BootMemory.Proofs.Frames.LiveSet

/-!
# What the allocator does to memory

The bitmap lies in the memory that the allocator manages, and memory is zeroed
through the direct map before it is handed out.  This module says which bytes a
set-up and each call change, at the addresses where they are reached.

A `Tenancy` follows a run in which the owners of live blocks write to their
memory between the calls, and remembers what each byte was last given.  Nobody
else ever writes to it: `Tenancy.memory_effects` says that the bytes of live
blocks read as they were left, and that the bits of the bitmap stay those of
the account.
-/

namespace BootMemory

/-! ## Where memory differs -/

namespace Memory

/-- Two memories read the same but for some addresses. -/
def DiffersWithin (places : UInt64 → Prop) (before after : Memory) : Prop :=
  ∀ address, ¬ places address → after.read address = before.read address

variable {places wider : UInt64 → Prop} {before middle after : Memory}

theorem DiffersWithin.refl (places : UInt64 → Prop) (memory : Memory) :
    DiffersWithin places memory memory :=
  fun _ _ => rfl

theorem DiffersWithin.trans
    (first : DiffersWithin places before middle)
    (second : DiffersWithin places middle after) :
    DiffersWithin places before after :=
  fun address outside =>
    (second address outside).trans (first address outside)

theorem DiffersWithin.mono
    (differs : DiffersWithin places before after)
    (within : ∀ address, places address → wider address) :
    DiffersWithin wider before after :=
  fun address outside =>
    differs address fun inside => outside (within address inside)

/-- A stretch reads as zeros if every address of it does. -/
theorem readRange_of_zero
    {memory : Memory} {start : UInt64} {length : Nat}
    (small : length ≤ wordCount)
    (zero : ∀ address, distance start address < length →
      memory.read address = 0) :
    memory.readRange start length = Array.replicate length 0 := by
  apply Array.ext
  · simp
  · intro index leftBound rightBound
    have bound : index < length := by simpa using leftBound
    simp only [readRange, Array.getElem_ofFn, Array.getElem_replicate]
    apply zero
    rw [distance_add_ofNat start (by omega)]
    exact bound

theorem readRange_one (memory : Memory) (start : UInt64) :
    memory.readRange start 1 = #[memory.read start] := by
  apply Array.ext
  · simp
  · intro index leftBound _
    have zero : index = 0 := by simpa using leftBound
    subst zero
    simp [readRange]

end Memory

namespace Storage

/-- The addresses of a storage. -/
def Holds (storage : Storage) (address : UInt64) : Prop :=
  storage.base.value.toNat ≤ address.toNat ∧
    address.toNat < storage.base.value.toNat + storage.length

theorem store_differs
    {storage : Storage} {bitmap : Bitmap} (memory : Memory)
    (inside : storage.base.value.toNat + storage.length ≤ wordCount)
    (size : bitmap.bytes.size = storage.length) :
    Memory.DiffersWithin storage.Holds memory
      (storage.store bitmap memory) := by
  intro address outside
  rw [store, Memory.read_write, size, if_neg]
  rw [Memory.distance_lt_iff inside]
  exact outside

end Storage

namespace Block

/-- The addresses at which a direct map reaches a block. -/
def Mapped (offset : UInt64) (block : Block) (address : UInt64) : Prop :=
  offset.toNat ≤ address.toNat ∧
    block.Contains (address.toNat - offset.toNat)

instance (block : Block) (byte : Nat) : Decidable (block.Contains byte) :=
  inferInstanceAs (Decidable (_ ∧ _))

end Block

/-! ## Setting up -/

/-- A set-up writes to its bitmap only, and to nothing if it fails. -/
structure Boot.SetUpEffects
    (profile : Profile) (offset : UInt64) (boot : Boot) : Prop where
  grantable : ∀ allocator middle,
    setUp profile (.direct ⟨offset⟩) boot = .ok (.ok allocator) middle →
      Memory.DiffersWithin allocator.storage.Holds boot.memory middle.memory
  refused : ∀ refusal middle,
    setUp profile (.direct ⟨offset⟩) boot = .ok (.error refusal) middle →
      middle.memory = boot.memory
  faultless : ∀ fault middle,
    setUp profile (.direct ⟨offset⟩) boot ≠ .error fault middle

theorem Boot.setUp_effects
    {offset : UInt64} {boot : Boot} (profile : Profile)
    (sound : SoundMap boot.map)
    (reaches : DirectMap.Reaches ⟨offset⟩ boot.map) :
    SetUpEffects profile offset boot where
  grantable := by
    intro allocator middle ran
    have placed := (Ledger.accounted_start sound reaches ran).fits.placed
    rcases setUp_ok sound reaches ran with ⟨host, -, rfl, memory⟩
    rw [memory]
    exact
      Storage.store_differs boot.memory placed.storage_le (by simp)
  refused := by
    intro refusal middle ran
    cases offered : boot.map.any Region.isOffered with
    | false =>
        rw [setUp_of_none profile (.direct ⟨offset⟩) sound offered] at ran
        cases ran
        rfl
    | true =>
        cases found :
            Host.find (bitmapFrames boot.map * frameSize)
              (boot.map.map Region.pastFrameZero) with
        | none =>
            rw [
              setUp_of_unhosted profile (.direct ⟨offset⟩) sound offered
                found] at ran
            cases ran
            rfl
        | some host =>
            rcases setUp_of_found profile sound reaches offered found with
              ⟨log, founded⟩
            rw [founded] at ran
            cases ran
  faultless := by
    intro fault middle ran
    rcases setUp_outcome profile sound reaches with
      ⟨-, other, outcome⟩ | ⟨-, -, other, outcome⟩ |
        ⟨host, log, -, outcome⟩
    · rw [outcome] at ran
      cases ran
    · rw [outcome] at ran
      cases ran
    · rw [outcome] at ran
      cases ran

/-! ## Requests and releases -/

namespace Machine

variable {offset : UInt64} {profile : Profile} {machine later : Machine}
  {address : PhysicalAddress} {size : UInt64}

/-- The addresses of a run of frames are those where it is zeroed. -/
theorem mapped_iff
    (placed : machine.Placed offset) {first : Nat}
    (positive : 0 < framesFor size.toNat)
    (inside :
      first + framesFor size.toNat ≤ machine.allocator.frameLimit)
    (place : UInt64) :
    (Block.mk (Address.ofFrame first) size).Mapped offset place ↔
      Memory.distance (reached offset first) place <
        framesFor size.toNat * frameSize := by
  have high := placed.reach_le
  have start := toNat_reached placed (by omega : first < _)
  have value := placed.toNat_ofFrame (by omega : first < _)
  rw [Memory.distance_lt_iff (by
    rw [start]
    simp only [frameSize] at high ⊢
    omega), start, Block.Mapped, Block.Contains, value, Block.count]
  simp only [frameSize]
  omega

/-- Granting a run writes to it and to the bitmap. -/
theorem grant_differs
    (placed : machine.Placed offset) {first : Nat}
    (positive : 0 < framesFor size.toNat)
    (inside :
      first + framesFor size.toNat ≤ machine.allocator.frameLimit)
    (wrapped : Bool) :
    Memory.DiffersWithin
        (fun place => machine.allocator.storage.Holds place ∨
          (Block.mk (Address.ofFrame first) size).Mapped offset place)
        machine.memory
        (machine.grant offset first (framesFor size.toNat) wrapped).memory ∧
      ∀ place,
        (Block.mk (Address.ofFrame first) size).Mapped offset place →
          (machine.grant offset first (framesFor size.toNat)
            wrapped).memory.read place = 0 := by
  have mapped := mapped_iff placed positive inside
  constructor
  · have stored :
        Memory.DiffersWithin machine.allocator.storage.Holds machine.memory
          (machine.allocator.storage.store
            (machine.table.bitmap.putRange true first
              (framesFor size.toNat)) machine.memory) :=
      Storage.store_differs machine.memory placed.storage_le
        (by simp [table])
    refine (stored.mono fun place => Or.inl).trans ?_
    intro place outside
    rw [grant, grantAt, Memory.read_fill, if_neg]
    rw [← mapped]
    exact fun inBlock => outside (Or.inr inBlock)
  · intro place inBlock
    rw [grant, grantAt, Memory.read_fill, if_pos ((mapped place).mp inBlock)]

/-- A request that is granted writes zeros to all of its block. -/
theorem RunsGrantable.granted_effects
    (grantable : machine.RunsGrantable offset) (nonzero : size ≠ 0)
    (ran : machine.allocate profile size = .ok (.ok address) later) :
    Memory.DiffersWithin
        (fun place => machine.allocator.storage.Holds place ∨
          (Block.mk address size).Mapped offset place)
        machine.memory later.memory ∧
      ∀ place, (Block.mk address size).Mapped offset place →
        later.memory.read place = 0 := by
  rcases grantable.granted_run nonzero ran with
    ⟨first, wrapped, rfl, rfl, inside, -⟩
  exact
    grant_differs grantable.placed
      (framesFor_pos (toNat_pos_of_ne_zero nonzero))
      (Nat.le_trans inside machine.scanLimit_le) wrapped

/-- The memory that a request is granted reads as zeros. -/
theorem RunsGrantable.granted_reads
    (grantable : machine.RunsGrantable offset) (nonzero : size ≠ 0)
    (ran : machine.allocate profile size = .ok (.ok address) later) :
    machine.allocator.mapper.readRange profile later.memory address
        (framesFor size.toNat * frameSize) =
      .ok (Array.replicate (framesFor size.toNat * frameSize) 0) := by
  have zeroed := (grantable.granted_effects nonzero ran).2
  rcases grantable.granted_run nonzero ran with
    ⟨first, wrapped, rfl, -, below, -⟩
  have placed := grantable.placed
  have positive := framesFor_pos (toNat_pos_of_ne_zero nonzero)
  have inside := Nat.le_trans below machine.scanLimit_le
  have low := placed.frames_le
  have offsetBound := offset.toNat_lt
  have small : framesFor size.toNat * frameSize ≤ wordCount :=
    calc
      framesFor size.toNat * frameSize ≤
          machine.allocator.frameLimit * frameSize :=
        Nat.mul_le_mul_right _ (Nat.le_trans (Nat.le_add_left _ _) inside)
      _ ≤ offset.toNat := low
      _ ≤ wordCount := Nat.le_of_lt offsetBound
  have translated :=
    placed.reach_frame profile (by omega : first < _)
  have zeros :=
    Memory.readRange_of_zero small fun place within =>
      zeroed place ((mapped_iff placed positive inside place).mpr within)
  simp only [Mapper.readRange, translated, zeros, bind, Except.bind, pure,
    Except.pure]

/-- Taking frames back writes to the bitmap only. -/
theorem takeBack_differs
    (placed : machine.Placed offset) (address : PhysicalAddress)
    (count : Nat) :
    Memory.DiffersWithin machine.allocator.storage.Holds machine.memory
      (machine.takeBack address count).memory :=
  Storage.store_differs machine.memory placed.storage_le
    (by simp [table, FrameTable.giveBack])

/-- A release writes to the bitmap only, whatever it names. -/
theorem free_differs
    (placed : machine.Placed offset)
    (ran : machine.free profile address size = .ok () later) :
    Memory.DiffersWithin machine.allocator.storage.Holds machine.memory
      later.memory := by
  rcases free_run placed.bits_lt ran with ⟨-, rfl⟩ | ⟨-, -, rfl⟩
  · exact Memory.DiffersWithin.refl _ _
  · exact takeBack_differs placed address _

/-! ## Single bytes -/

theorem holds_byteAt_iff
    (placed : machine.Placed offset) {byte : Nat}
    (inside : byte < machine.allocator.frameLimit * frameSize) :
    machine.allocator.storage.Holds (byteAt offset byte) ↔
      machine.place offset ≤ byte ∧
        byte <
          machine.place offset + machine.allocator.storage.length := by
  have above := placed.offset_le
  rw [Storage.Holds, toNat_byteAt placed inside, place]
  omega

theorem mapped_byteAt_iff
    (placed : machine.Placed offset) {byte : Nat}
    (inside : byte < machine.allocator.frameLimit * frameSize)
    (block : Block) :
    block.Mapped offset (byteAt offset byte) ↔ block.Contains byte := by
  rw [Block.Mapped, toNat_byteAt placed inside, Nat.add_sub_cancel_left]
  exact and_iff_right (Nat.le_add_right _ _)

/-- Writing a byte of physical memory changes the address that reaches it. -/
theorem fill_byte
    (placed : machine.Placed offset) (profile : Profile)
    {address : PhysicalAddress}
    (inside :
      address.value.toNat < machine.allocator.frameLimit * frameSize)
    (memory : Memory) (value : UInt8) :
    machine.allocator.mapper.fill profile memory address 1 value =
      .ok (memory.fill (byteAt offset address.value.toNat) 1 value) := by
  simp only [Mapper.fill, placed.reach_eq profile inside, bind, Except.bind,
    pure, Except.pure]

theorem read_fill_byte
    (placed : machine.Placed offset) {byte : Nat}
    (inside : byte < machine.allocator.frameLimit * frameSize)
    (memory : Memory) (value : UInt8) (address : UInt64) :
    (memory.fill (byteAt offset byte) 1 value).read address =
      if address.toNat = offset.toNat + byte then
        value
      else
        memory.read address := by
  have high := placed.reach_le
  have start := toNat_byteAt placed inside
  have same :
      Memory.distance (byteAt offset byte) address < 1 ↔
        address.toNat = offset.toNat + byte := by
    rw [Memory.distance_lt_iff (by omega), start]
    omega
  rw [Memory.read_fill, if_congr same rfl rfl]

end Machine

namespace Ledger

variable {profile : Profile} {offset : UInt64} {map : List Region}
  {ledger before after : Ledger}

/-- A byte of a block that was handed out by a call. -/
def Fresh (before after : Ledger) (byte : Nat) : Prop :=
  ∃ block ∈ after.live, block ∉ before.live ∧ block.Contains byte

instance (before after : Ledger) (byte : Nat) :
    Decidable (Fresh before after byte) :=
  inferInstanceAs
    (Decidable
      (∃ block ∈ after.live, block ∉ before.live ∧ block.Contains byte))

/-- A call that hands out nothing and leaves a byte alone keeps it. -/
theorem read_of_subset
    (subset : ∀ block ∈ after.live, block ∈ before.live) {byte : Nat}
    {value : UInt8}
    (same :
      after.machine.memory.read (Machine.byteAt offset byte) = value) :
    after.machine.memory.read (Machine.byteAt offset byte) =
      if Fresh before after byte then 0 else value := by
  rw [if_neg]
  · exact same
  · rintro ⟨block, member, new, -⟩
    exact new (subset block member)

namespace BitsAccounted

/-- The bytes of live blocks are below the end of memory. -/
theorem byte_lt
    (account : ledger.BitsAccounted offset map) (mapSound : SoundMap map)
    {block : Block} (member : block ∈ ledger.live) {byte : Nat}
    (inside : block.Contains byte) :
    byte < ledger.machine.allocator.frameLimit * frameSize := by
  have below :=
    account.frame_lt_limit mapSound (account.lends_of_contains member inside)
  simp only [frameSize] at below ⊢
  omega

/-- The bytes of live blocks are not those of the bitmap. -/
theorem not_holds
    (account : ledger.BitsAccounted offset map) (mapSound : SoundMap map)
    {block : Block} (member : block ∈ ledger.live) {byte : Nat}
    (inside : block.Contains byte) :
    ¬ ledger.machine.allocator.storage.Holds
      (Machine.byteAt offset byte) := by
  rw [
    Machine.holds_byteAt_iff account.fits.placed
      (account.byte_lt mapSound member inside)]
  exact (account.exclusive mapSound).bitmap block member byte inside

/-- A block that was just handed out was not live before. -/
theorem not_mem_of_granted
    (account : ledger.BitsAccounted offset map) (mapSound : SoundMap map)
    {size : UInt64} {address : PhysicalAddress} {machine : Machine}
    (nonzero : size ≠ 0)
    (ran :
      ledger.machine.allocate profile size = .ok (.ok address) machine) :
    Block.mk address size ∉ ledger.live := by
  intro member
  have later := account.granted mapSound nonzero ran
  have apart := (List.pairwise_cons.mp later.disjoint).1 _ member
  have positive := account.positive _ member
  rw [disjoint_self, Finset.bot_eq_empty] at apart
  have first : address.frame ∈ (Block.mk address size).frames :=
    Block.mem_frames.mpr
      ⟨Nat.le_refl _, Nat.lt_add_of_pos_right positive⟩
  rw [apart] at first
  exact Finset.notMem_empty _ first

/--
A call zeroes the bytes that it hands out, and otherwise changes no byte of
memory outside the bitmap.
-/
theorem read_step
    (account : before.BitsAccounted offset map) (mapSound : SoundMap map)
    (taken : Step profile map before after) {byte : Nat}
    (inside : byte < before.machine.allocator.frameLimit * frameSize)
    (outside :
      ¬ before.machine.allocator.storage.Holds
        (Machine.byteAt offset byte)) :
    after.machine.memory.read (Machine.byteAt offset byte) =
      if Fresh before after byte then
        0
      else
        before.machine.memory.read (Machine.byteAt offset byte) := by
  have placed := account.fits.placed
  cases taken with
  | @granted machine size address nonzero ran =>
      -- The block was not live, so the fresh bytes are all of its bytes.
      have new := account.not_mem_of_granted mapSound nonzero ran
      rcases (account.runsGrantable mapSound).granted_effects nonzero ran with
        ⟨differs, zeroed⟩
      have fresh :
          Fresh before
              { before with
                machine, live := ⟨address, size⟩ :: before.live } byte ↔
            (Block.mk address size).Mapped offset
              (Machine.byteAt offset byte) := by
        rw [Machine.mapped_byteAt_iff placed inside]
        constructor
        · rintro ⟨block, member, unheld, contains⟩
          rcases List.mem_cons.mp member with rfl | old
          · exact contains
          · exact absurd old unheld
        · intro contains
          exact ⟨_, List.mem_cons_self, new, contains⟩
      split
      · rename_i isFresh
        exact zeroed _ (fresh.mp isFresh)
      · rename_i old
        exact
          differs _ fun within =>
            within.elim outside fun mapped => old (fresh.mpr mapped)
  | unserved nothing ran =>
      rcases account.unserved_run mapSound nothing ran with ⟨log, rfl⟩
      exact read_of_subset (fun _ member => member) rfl
  | ignored nothing ran =>
      exact
        read_of_subset (fun _ member => member)
          (Machine.free_differs placed ran _ outside)
  | freed member same ran =>
      exact
        read_of_subset (fun _ => List.mem_of_mem_erase)
          (Machine.free_differs placed ran _ outside)
  | handedBack named nonzero whole ran =>
      exact
        read_of_subset (fun _ member => member)
          (Machine.free_differs placed ran _ outside)

end BitsAccounted

end Ledger

/-! ## Owners that write to their memory -/

/-- A ledger with what the bytes of live blocks were last given. -/
structure Tenancy where
  ledger : Ledger
  /-- What a byte was last given: by its owner, or zero when handed out. -/
  written : Nat → UInt8

namespace Tenancy

variable {profile : Profile} {offset : UInt64} {map : List Region}
  {tenancy later : Tenancy}

/-- A call that keeps to the contract, or the owner of a block writes a byte. -/
inductive Step (profile : Profile) (map : List Region) :
    Tenancy → Tenancy → Prop where
  | called {tenancy : Tenancy} {after : Ledger}
      (taken : Ledger.Step profile map tenancy.ledger after) :
      Step profile map tenancy
        { ledger := after
          written := fun byte =>
            if Ledger.Fresh tenancy.ledger after byte then
              0
            else
              tenancy.written byte }
  | wrote {tenancy : Tenancy} {block : Block} {address : PhysicalAddress}
      {value : UInt8} {memory : Memory}
      (member : block ∈ tenancy.ledger.live)
      (inside : block.Contains address.value.toNat)
      (ran :
        tenancy.ledger.machine.allocator.mapper.fill profile
          tenancy.ledger.machine.memory address 1 value = .ok memory) :
      Step profile map tenancy
        { ledger :=
            { tenancy.ledger with
              machine := { tenancy.ledger.machine with memory } }
          written :=
            Function.update tenancy.written address.value.toNat value }

/-- The tenancies of all runs from a successful set-up on a map. -/
inductive Reachable
    (profile : Profile) (offset : UInt64) (map : List Region) :
    Tenancy → Prop where
  | start {ledger : Ledger}
      (opening : Ledger.Opening profile offset map ledger) :
      Reachable profile offset map { ledger, written := fun _ => 0 }
  | step {before after : Tenancy}
      (reachable : Reachable profile offset map before)
      (taken : Step profile map before after) :
      Reachable profile offset map after

/-- The bytes of live blocks are as they were last given. -/
structure BytesKept
    (offset : UInt64) (map : List Region) (tenancy : Tenancy) :
    Prop where
  account : tenancy.ledger.BitsAccounted offset map
  full :
    tenancy.ledger.machine.allocator.storage.bits =
      8 * tenancy.ledger.machine.allocator.storage.length
  read_eq : ∀ block ∈ tenancy.ledger.live, ∀ byte, block.Contains byte →
    tenancy.ledger.machine.memory.read (Machine.byteAt offset byte) =
      tenancy.written byte

namespace BytesKept

/-- A call keeps the bytes of all blocks that stay live. -/
theorem called
    (kept : tenancy.BytesKept offset map) (mapSound : SoundMap map)
    {after : Ledger}
    (taken : Ledger.Step profile map tenancy.ledger after) :
    BytesKept offset map
      { ledger := after
        written := fun byte =>
          if Ledger.Fresh tenancy.ledger after byte then
            0
          else
            tenancy.written byte } := by
  have reached := kept.account.step mapSound taken
  have keeps := kept.account.keeps mapSound taken
  refine { account := reached, full := ?_, read_eq := ?_ }
  · rw [keeps.storage]
    exact kept.full
  · intro block member byte inside
    have below := reached.byte_lt mapSound member inside
    have outside := reached.not_holds mapSound member inside
    rw [keeps.limit] at below
    rw [keeps.storage] at outside
    dsimp only
    rw [kept.account.read_step mapSound taken below outside]
    split
    · rfl
    · rename_i old
      apply kept.read_eq block _ byte inside
      by_contra new
      exact old ⟨block, member, new, inside⟩

/-- Writing to a live block changes neither the bitmap nor another byte. -/
theorem wrote
    (kept : tenancy.BytesKept offset map) (mapSound : SoundMap map)
    {block : Block} {address : PhysicalAddress} {value : UInt8}
    {memory : Memory}
    (member : block ∈ tenancy.ledger.live)
    (inside : block.Contains address.value.toNat)
    (ran :
      tenancy.ledger.machine.allocator.mapper.fill profile
        tenancy.ledger.machine.memory address 1 value = .ok memory) :
    BytesKept offset map
      { ledger :=
          { tenancy.ledger with
            machine := { tenancy.ledger.machine with memory } }
        written :=
          Function.update tenancy.written address.value.toNat value } := by
  have placed := kept.account.fits.placed
  have below := kept.account.byte_lt mapSound member inside
  have outside := kept.account.not_holds mapSound member inside
  rw [Machine.fill_byte placed profile below] at ran
  cases ran
  refine
    { account := kept.account.congr rfl ?_ rfl rfl
      full := kept.full
      read_eq := ?_ }
  · apply Storage.load_congr
    intro place stored
    rw [Memory.distance_lt_iff placed.storage_le] at stored
    rw [Machine.read_fill_byte placed below, if_neg]
    intro same
    apply outside
    rw [Storage.Holds, Machine.toNat_byteAt placed below, ← same]
    exact stored
  · intro other otherMember byte inOther
    have otherBelow := kept.account.byte_lt mapSound otherMember inOther
    dsimp only
    rw [Machine.read_fill_byte placed below,
      Machine.toNat_byteAt placed otherBelow, Function.update_apply]
    by_cases same : byte = address.value.toNat
    · rw [if_pos same, if_pos (by rw [same])]
    · rw [if_neg same, if_neg (by omega)]
      exact kept.read_eq other otherMember byte inOther

theorem step
    (kept : tenancy.BytesKept offset map) (mapSound : SoundMap map)
    (taken : Step profile map tenancy later) :
    later.BytesKept offset map := by
  cases taken with
  | called taken => exact kept.called mapSound taken
  | wrote member inside ran => exact kept.wrote mapSound member inside ran

end BytesKept

theorem bytesKept_start
    (mapSound : SoundMap map) (reaches : DirectMap.Reaches ⟨offset⟩ map)
    {ledger : Ledger} (opening : Ledger.Opening profile offset map ledger)
    (written : Nat → UInt8) :
    BytesKept offset map { ledger, written } where
  account := opening.accounted mapSound reaches
  full := opening.bits_eq mapSound reaches
  read_eq := by
    cases opening with
    | setUp same ran => simp

/-- What owners wrote is kept throughout every run. -/
theorem Reachable.bytesKept
    (mapSound : SoundMap map) (reaches : DirectMap.Reaches ⟨offset⟩ map)
    (reachable : Reachable profile offset map tenancy) :
    tenancy.BytesKept offset map := by
  induction reachable with
  | start opening => exact bytesKept_start mapSound reaches opening _
  | step _ taken inductionHypothesis =>
      exact inductionHypothesis.step mapSound taken

/-- What memory holds during a run, and what the next call changes in it. -/
structure Effects
    (profile : Profile) (offset : UInt64) (map : List Region)
    (tenancy : Tenancy) : Prop where
  kept : ∀ block ∈ tenancy.ledger.live, ∀ address : PhysicalAddress,
    block.Contains address.value.toNat →
      tenancy.ledger.machine.allocator.mapper.readRange profile
          tenancy.ledger.machine.memory address 1 =
        .ok #[tenancy.written address.value.toNat]
  bytes_eq :
    tenancy.ledger.machine.memory.readRange
        tenancy.ledger.machine.allocator.storage.base.value
        tenancy.ledger.machine.allocator.storage.length =
      tenancy.ledger.machine.table.bitmap.bytes
  bits_eq :
    tenancy.ledger.machine.allocator.storage.bits =
      8 * tenancy.ledger.machine.allocator.storage.length
  bit_iff : ∀ frame,
    frame < tenancy.ledger.machine.allocator.storage.bits →
      ((tenancy.ledger.machine.memory.read
            (tenancy.ledger.machine.allocator.storage.base.value +
              UInt64.ofNat (frame / 8))).toBitVec.getLsbD (frame % 8) =
          false ↔
        tenancy.ledger.Lends offset map frame ∧
          tenancy.ledger.Idle frame)
  granted : ∀ (size : UInt64) (address : PhysicalAddress) (later : Machine),
    size ≠ 0 →
      tenancy.ledger.machine.allocate profile size =
          .ok (.ok address) later →
        Memory.DiffersWithin
            (fun place =>
              tenancy.ledger.machine.allocator.storage.Holds place ∨
                (Block.mk address size).Mapped offset place)
            tenancy.ledger.machine.memory later.memory ∧
          tenancy.ledger.machine.allocator.mapper.readRange profile
              later.memory address (framesFor size.toNat * frameSize) =
            .ok (Array.replicate (framesFor size.toNat * frameSize) 0)
  unserved : ∀ (size : UInt64) (result : Except AllocError PhysicalAddress)
      (later : Machine),
    (size = 0 ∨ ∃ refusal, result = .error refusal) →
      tenancy.ledger.machine.allocate profile size = .ok result later →
        later.memory = tenancy.ledger.machine.memory
  freed : ∀ (address : PhysicalAddress) (size : UInt64) (later : Machine),
    tenancy.ledger.machine.free profile address size = .ok () later →
      Memory.DiffersWithin
        tenancy.ledger.machine.allocator.storage.Holds
        tenancy.ledger.machine.memory later.memory

/-- A bit of the stored bitmap is a bit of a byte of memory. -/
theorem bit_eq_read
    {machine : Machine} {frame : Nat}
    (full :
      machine.allocator.storage.bits =
        8 * machine.allocator.storage.length)
    (inside : frame < machine.allocator.storage.bits) :
    machine.table.bitmap.bit frame =
      (machine.memory.read
        (machine.allocator.storage.base.value +
          UInt64.ofNat (frame / 8))).toBitVec.getLsbD (frame % 8) := by
  have bound : frame / 8 < machine.allocator.storage.length := by omega
  rw [Bitmap.bit_eq_getLsbD _ inside]
  simp [Machine.table, Storage.load, Memory.readRange, Array.getD, bound]

theorem BytesKept.effects
    (kept : tenancy.BytesKept offset map) (mapSound : SoundMap map)
    (profile : Profile) : tenancy.Effects profile offset map where
  kept := by
    intro block member address inside
    have below := kept.account.byte_lt mapSound member inside
    have reached :=
      kept.account.fits.placed.reach_eq profile below
    have read := kept.read_eq block member address.value.toNat inside
    simp only [Mapper.readRange, reached, bind, Except.bind, pure,
      Except.pure, Memory.readRange_one, read]
  bytes_eq := rfl
  bits_eq := kept.full
  bit_iff := by
    intro frame inside
    rw [← bit_eq_read kept.full inside]
    exact kept.account.clear_iff frame inside
  granted := by
    intro size address later nonzero ran
    have grantable := kept.account.runsGrantable mapSound
    exact
      ⟨(grantable.granted_effects nonzero ran).1,
        grantable.granted_reads nonzero ran⟩
  unserved := by
    intro size result later nothing ran
    rcases kept.account.unserved_run mapSound nothing ran with ⟨log, rfl⟩
    rfl
  freed := by
    intro address size later ran
    exact Machine.free_differs kept.account.fits.placed ran

/--
A set-up writes to the bitmap only, and so does a release; a request writes
zeros to what it is granted besides.  Throughout every run the owners of live
blocks read what they wrote, and the bitmap in memory is that of the account.
-/
theorem memory_effects
    (mapSound : SoundMap map)
    (reaches : DirectMap.Reaches ⟨offset⟩ map) :
    (∀ boot : Boot, boot.map = map →
      Boot.SetUpEffects profile offset boot) ∧
    ∀ tenancy, Reachable profile offset map tenancy →
      tenancy.Effects profile offset map := by
  constructor
  · intro boot same
    subst same
    exact Boot.setUp_effects profile mapSound reaches
  · intro tenancy reachable
    exact (reachable.bytesKept mapSound reaches).effects mapSound profile

/-- The calls of a run make a tenancy in which no owner writes. -/
theorem exists_of_run
    {start ledger : Ledger}
    (opening : Ledger.Opening profile offset map start)
    (run : Ledger.Run profile map start ledger) :
    ∃ written, Reachable profile offset map { ledger, written } := by
  induction run with
  | refl => exact ⟨_, .start opening⟩
  | tail _ taken inductionHypothesis =>
      rcases inductionHypothesis with ⟨written, reachable⟩
      exact ⟨_, reachable.step (.called taken)⟩

end Tenancy

namespace Sample

/-- The owner of the sample's block writes a seven to its first byte. -/
theorem granted_memory_effects :
    SoundMap gapMap ∧ DirectMap.Reaches ⟨offset⟩ gapMap ∧
      (∀ boot : Boot, boot.map = gapMap →
        Boot.SetUpEffects .debug offset boot) ∧
      ∃ tenancy, Tenancy.Reachable .debug offset gapMap tenancy ∧
        tenancy.ledger.live = [⟨Address.ofFrame 4, 8192⟩] ∧
          tenancy.written 16384 = 7 ∧
            tenancy.Effects .debug offset gapMap := by
  rcases exists_granted with ⟨ledger, state⟩
  rcases state.reachable.exists_opening with ⟨start, opening, run⟩
  rcases Tenancy.exists_of_run opening run with ⟨written, reachable⟩
  have value : (Address.ofFrame 4 : PhysicalAddress).value.toNat = 16384 := by
    decide
  have member :
      Block.mk (Address.ofFrame 4) 8192 ∈ ledger.live := by
    rw [state.live_eq]
    exact List.mem_singleton_self _
  have inside :
      (Block.mk (Address.ofFrame 4) 8192).Contains
        (Address.ofFrame 4 : PhysicalAddress).value.toNat := by
    rw [Block.Contains, Block.count, count_eq, value]
    decide
  -- The memory stays a variable, so that nothing evaluates the write.
  obtain ⟨memory, filled⟩ : ∃ memory,
      ledger.machine.allocator.mapper.fill .debug ledger.machine.memory
        (Address.ofFrame 4) 1 7 = .ok memory :=
    ⟨_, Machine.fill_byte state.accounted.fits.placed .debug
      (state.accounted.byte_lt gapMap_sound member inside) _ 7⟩
  have wrote := reachable.step (.wrote member inside filled)
  have effects :=
    @Tenancy.memory_effects .debug offset gapMap gapMap_sound
      gapMap_reaches
  refine
    ⟨gapMap_sound, gapMap_reaches, effects.1, _, wrote, state.live_eq, ?_,
      effects.2 _ wrote⟩
  simp only [value, Function.update_self]

end Sample

end BootMemory
