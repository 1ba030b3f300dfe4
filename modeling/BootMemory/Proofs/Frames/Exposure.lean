import BootMemory.Proofs.Frames.Checks
import BootMemory.Proofs.Frames.Effects
import BootMemory.Proofs.Frames.Interchange
import BootMemory.Proofs.Frames.Reuse
import BootMemory.Proofs.Frames.Twin

/-!
# Memory that cannot be exposed

A request for accessible memory is a plain request, followed by a translation of
the address that was granted.  A mapper may have no accessible address for it.
Then the memory is given back, by the same release that callers use, checks
included.

`Machine.Exposes` tells each outcome by what the plain request does.  That the
release is never stopped, and that it restores the bitmap and the page count, is
`FrameTable.releasable_claim` and `Machine.undo_grantAt`: whatever run was
claimed, its bits were clear before and are the only ones that were set.
`Ledger.ReachableThrough.exposes` proves it of every ledger of a run through a
mapper that keeps memory apart.
-/

namespace BootMemory

/-! ## Giving a claimed run back -/

namespace FrameTable

variable {table : FrameTable} {first count : Nat}

/-- A run that was just claimed passes all checks of a release. -/
theorem releasable_claim
    (nonzero : first ≠ 0) (inside : first + count ≤ table.bitmap.bits)
    (small : table.bitmap.bits < wordCount) (usedPages : Nat) :
    { table.claim first count with usedPages }.Releasable first count := by
  have stop : runStop first count = first + count := by
    unfold runStop
    omega
  refine ⟨?_, nonzero, ?_⟩
  · rw [stop, claim, Bitmap.bits_putRange]
    exact inside
  · intro frame lower upper
    rw [stop] at upper
    rw [claim, Bitmap.bit_putRange table.bitmap true inside,
      if_pos ⟨lower, upper⟩]

/-- A claimed run leaves no trace in the bitmap once it is given back. -/
theorem bitmap_giveBack_claim
    (nonzero : first ≠ 0) (inside : first + count ≤ table.bitmap.bits)
    (small : table.bitmap.bits < wordCount)
    (free : table.bitmap.FreeRun first count) (usedPages : Nat) :
    ({ table.claim first count with usedPages }.giveBack first
        count).bitmap =
      table.bitmap := by
  apply Bitmap.ext_bufferBit
  · simp [claim]
  · simp [claim]
  · intro index _
    have named := names_iff (by omega : first + count < wordCount) index
    rw [bufferBit_giveBack, claim, Bitmap.bufferBit_putRange,
      Bitmap.bits_putRange, if_congr (and_congr_left' named) rfl rfl]
    by_cases inRun :
        (index ≠ 0 ∧ first ≤ index ∧ index < first + count) ∧
          index < table.bitmap.bits
    · have clear := free index inRun.1.2.1 inRun.1.2.2
      rw [Bitmap.bit_eq, decide_eq_true inRun.2, Bool.true_and] at clear
      rw [if_pos inRun, clear]
    · rw [if_neg inRun, if_neg (by omega)]

end FrameTable

namespace Machine

variable {profile : Profile} {machine later final : Machine}
  {size : UInt64} {address : PhysicalAddress}

/-- The machine as it was, but for the cursor, the log, and some addresses. -/
structure Reverts
    (places : UInt64 → Prop) (machine later : Machine) : Prop where
  bitmap_eq : later.table.bitmap = machine.table.bitmap
  books_eq : ∃ cursor, later.allocator = { machine.allocator with cursor }
  differs : Memory.DiffersWithin places machine.memory later.memory

theorem Reverts.refl (places : UInt64 → Prop) (machine : Machine) :
    machine.Reverts places machine :=
  ⟨rfl, ⟨_, rfl⟩, Memory.DiffersWithin.refl places machine.memory⟩

section Undo

variable {place : UInt64} {first count : Nat}

/-- If the bitmap is back, nothing but the zeroed run reads differently. -/
theorem undo_differs
    (wrapped : Bool)
    (restored :
      ((machine.grantAt place first count wrapped).table.giveBack
          (Address.ofFrame first).frame count).bitmap =
        machine.table.bitmap) :
    Memory.DiffersWithin
      (fun byte => Memory.distance place byte < count * frameSize)
      machine.memory
      ((machine.grantAt place first count wrapped).takeBack
        (Address.ofFrame first) count).memory := by
  intro byte outside
  have memory :
      ((machine.grantAt place first count wrapped).takeBack
            (Address.ofFrame first) count).memory =
        machine.allocator.storage.store machine.table.bitmap
          (machine.grantAt place first count wrapped).memory := by
    rw [← restored]
    rfl
  have stored :
      machine.memory.read byte =
        (machine.allocator.storage.store machine.table.bitmap
          machine.memory).read byte := by
    rw [table, Storage.store_load]
  -- Both memories were stored to last; behind the bitmap the zeros show.
  rw [memory, stored, Storage.store, Storage.store, Memory.read_write,
    Memory.read_write]
  split
  · rfl
  · rename_i beyond
    rw [grantAt, Memory.read_fill, if_neg outside, Storage.store,
      Memory.read_write, Bitmap.size_bytes_putRange, if_neg beyond]

/-- Taking a granted run back leaves its zeros, and else what was there. -/
theorem undo_grantAt
    (small : machine.allocator.storage.length ≤ wordCount)
    (bits : machine.allocator.storage.bits < wordCount)
    (kept : ∀ memory,
      machine.allocator.storage.load
          (Memory.fill memory place (count * frameSize) 0) =
        machine.allocator.storage.load memory)
    (nonzero : first ≠ 0) (named : (Address.ofFrame first).frame = first)
    (inside : first + count ≤ machine.allocator.storage.bits)
    (free : machine.table.bitmap.FreeRun first count) (wrapped : Bool) :
    machine.Reverts
      (fun byte => Memory.distance place byte < count * frameSize)
      ((machine.grantAt place first count wrapped).takeBack
        (Address.ofFrame first) count) := by
  have granted := @table_grantAt machine small place first count kept wrapped
  have releasable :
      (machine.grantAt place first count wrapped).table.Releasable
        (Address.ofFrame first).frame count := by
    rw [granted, named]
    exact
      @FrameTable.releasable_claim machine.table first count nonzero inside
        bits _
  have restored :
      ((machine.grantAt place first count wrapped).table.giveBack
          (Address.ofFrame first).frame count).bitmap =
        machine.table.bitmap := by
    rw [granted, named]
    exact FrameTable.bitmap_giveBack_claim nonzero inside bits free _
  have taken :=
    @table_takeBack (machine.grantAt place first count wrapped) small
      (Address.ofFrame first) count
  have pages :
      ((machine.grantAt place first count wrapped).takeBack
          (Address.ofFrame first) count).allocator.usedPages =
        machine.allocator.usedPages := by
    rw [usedPages_takeBack, releasable.card_released (by omega)]
    exact Nat.add_sub_cancel _ _
  have books :
      ((machine.grantAt place first count wrapped).takeBack
          (Address.ofFrame first) count).allocator =
        { machine.allocator with
          usedPages :=
            ((machine.grantAt place first count wrapped).takeBack
              (Address.ofFrame first) count).allocator.usedPages
          cursor :=
            ((machine.grantAt place first count wrapped).takeBack
              (Address.ofFrame first) count).allocator.cursor } := rfl
  rw [pages] at books
  refine ⟨?_, ⟨_, books⟩, undo_differs wrapped restored⟩
  rw [taken]
  exact restored

end Undo

/-! ## The outcome of a request for accessible memory -/

/-- The addresses at which the mapper zeroes memory of a size. -/
def Zeroes
    (profile : Profile) (machine : Machine) (address : PhysicalAddress)
    (size : UInt64) (place : UInt64) : Prop :=
  ∃ reached, machine.allocator.mapper.reach profile address = .ok reached ∧
    Memory.distance reached.value place < framesFor size.toNat * frameSize

/--
The outcome of a request for accessible memory, told by the plain request: the
same machine with the translated address, or what was granted has been given
back, or the same refusal.  Only the translation itself can be at fault.
-/
def Exposes
    (profile : Profile) (size : UInt64) (machine : Machine) :
    EStateM.Result Fault Machine (Except AllocError VirtualAddress) → Prop
  | .ok (.ok accessible) later =>
      accessible ≠ Address.null ∧
        ∃ address,
          machine.allocate profile size = .ok (.ok address) later ∧
            machine.toAccessible profile address = .ok accessible
  | .ok (.error (.notAccessible address)) later =>
      (size = 0 → address = Address.null) ∧
        (size ≠ 0 →
          machine.toAccessible profile address = .ok Address.null) ∧
          (∃ granted,
            machine.allocate profile size = .ok (.ok address) granted) ∧
            machine.Reverts (machine.Zeroes profile address size) later
  | .ok (.error (.outOfMemory pages)) later =>
      later.Matches machine ∧
        machine.allocate profile size =
          .ok (.error (.outOfMemory pages)) later
  | .ok (.error _) _ => False
  | .error fault _ =>
      ∃ address granted,
        machine.allocate profile size = .ok (.ok address) granted ∧
          machine.toAccessible profile address = .error fault

theorem exposes_zero (profile : Profile) (machine : Machine) :
    machine.Exposes profile 0 (machine.allocateAccessible profile 0) := by
  rw [allocateAccessible_zero]
  exact
    ⟨fun _ => rfl, fun some => absurd rfl some,
      ⟨_, allocate_zero profile machine⟩, .refl _ machine⟩

end Machine

namespace Ledger

variable {profile : Profile} {mapper : Mapper} {offset : UInt64}
  {map : List Region} {ledger twin : Ledger} {size : UInt64}

namespace Twin

variable {first : Nat} {reached : VirtualAddress} {wrapped : Bool}

/-- What was just granted can be given back, and then all is as it was. -/
theorem undo
    (twins : Twin profile mapper offset map ledger twin)
    (mapSound : SoundMap map) (separates : mapper.Separates profile map)
    (nonzero : size ≠ 0)
    (grants :
      Grants profile mapper offset ledger twin size first reached wrapped) :
    ∃ later,
      (ledger.machine.grantAt reached.value first (framesFor size.toNat)
          wrapped).free profile (Address.ofFrame first) size =
        .ok () later ∧
        ledger.machine.Reverts
          (ledger.machine.Zeroes profile (Address.ofFrame first) size)
          later := by
  have positive := framesFor_pos (Machine.toNat_pos_of_ne_zero nonzero)
  have covered := twins.account.fits.covered
  have inside := grants.inside
  have bits := twins.bits_eq
  have lends :=
    twins.lends_of_free inside grants.free (Nat.le_refl first) (by omega)
  have small : first < frameCount :=
    twins.account.fits.placed.lt_frameCount (by omega)
  have frame := Address.frame_ofFrame_of_lt small
  have named := Address.ofFrame_ne_null small lends.1
  have after := twins.granted mapSound separates nonzero grants
  have freed :=
    after.account.free_live mapSound profile (List.mem_cons_self ..) rfl
  have reverts :=
    Machine.undo_grantAt twins.length_le twins.bits_lt
      (twins.load_fill mapSound separates inside grants.free
        grants.translated)
      lends.1 frame (by omega) (by rw [twins.table_eq]; exact grants.free)
      wrapped
  refine
    ⟨_, (after.free_ok_iff named nonzero).mpr freed, reverts.bitmap_eq,
      reverts.books_eq, ?_⟩
  refine reverts.differs.mono ?_
  intro place zeroed
  refine ⟨reached, ?_, zeroed⟩
  rw [twins.mapper_eq]
  exact grants.translated

theorem exposure
    (twins : Twin profile mapper offset map ledger twin)
    (mapSound : SoundMap map) (separates : mapper.Separates profile map)
    (size : UInt64) :
    ledger.machine.Exposes profile size
      (ledger.machine.allocateAccessible profile size) := by
  by_cases zero : size = 0
  · rw [zero]
    exact Machine.exposes_zero profile ledger.machine
  rcases twins.request mapSound separates zero with
    ⟨first, reached, wrapped, grants⟩ | ⟨refused, -⟩
  · have granted := twins.granted mapSound separates zero grants
    have named : Address.ofFrame first ≠ Address.null :=
      granted.account.address_ne_null (List.mem_cons_self ..)
    cases translated :
        ledger.machine.toAccessible profile (Address.ofFrame first) with
    | error fault =>
        rw [Machine.allocateAccessible_of_stopped grants.ran
          (Machine.expose_of_error named translated)]
        exact ⟨_, _, grants.ran, translated⟩
    | ok accessible =>
        by_cases null : accessible = Address.null
        · rcases twins.undo mapSound separates zero grants with
            ⟨later, freed, reverts⟩
          rw [null] at translated
          rw [Machine.allocateAccessible_of_concealed grants.ran
            (Machine.expose_of_ok named translated) freed]
          exact
            ⟨fun isZero => absurd isZero zero, fun _ => translated,
              ⟨_, grants.ran⟩, reverts⟩
        · rw [Machine.allocateAccessible_of_exposed grants.ran
            (Machine.expose_of_ok named translated) null]
          exact ⟨null, _, grants.ran, translated⟩
  · rw [Machine.allocateAccessible_of_refused refused]
    exact ⟨⟨rfl, rfl⟩, refused⟩

end Twin

/--
A request for accessible memory does what a plain request does, or takes it back
and leaves no trace but zeros: through every mapper that keeps memory apart,
whatever it exposes, and in either profile.
-/
theorem ReachableThrough.exposes
    (mapSound : SoundMap map) (separates : mapper.Separates profile map)
    (reachable : ReachableThrough profile mapper map ledger)
    (size : UInt64) :
    ledger.machine.Exposes profile size
      (ledger.machine.allocateAccessible profile size) := by
  rcases reachable.exists_twin mapSound separates with ⟨offset, twin, twins⟩
  exact twins.exposure mapSound separates size

end Ledger

namespace Sample

/-- A direct map that exposes all memory but frame 2. -/
def veiled : Mapper :=
  (Mapper.direct ⟨offset⟩).concealing [Address.ofFrame 2]

theorem veiled_separates (profile : Profile) :
    veiled.Separates profile gapMap :=
  (gapMap_reaches.separates gapMap_sound profile).concealing _

/-- The sample is set up through it as well. -/
theorem exists_veiled_start :
    ∃ ledger, Ledger.ReachableThrough .debug veiled gapMap ledger ∧
      ledger.machine.allocator.cursor = 0 ∧
        ledger.machine.allocator.frameLimit = 6 ∧
          ∀ frame, frame < 6 →
            (ledger.machine.table.bitmap.bit frame = false ↔
              frame = 2 ∨ frame = 4 ∨ frame = 5) := by
  have frames : Boot.bitmapFrames gapMap = 1 := by decide
  have limit :
      (Boot.founded veiled ⟨offset + 4096⟩ gapMap).frameLimit = 6 := by decide
  have base :
      veiled.toVirtual .debug ⟨gapHost.region.base⟩ =
        .ok ⟨offset + 4096⟩ := by rfl
  rcases Host.exists_hosts gapMap_found with ⟨before, after, origin, hosts⟩
  rcases @Boot.setUp_of_reached ⟨gapMap, Memory.zero, []⟩ gapHost .debug
    veiled ⟨offset + 4096⟩ _ gapMap_sound (by decide) gapMap_found rfl base
    with ⟨log, ran⟩
  refine ⟨_, .start rfl ran, rfl, limit, ?_⟩
  intro frame below
  rw [
    Boot.bitmap_start
      (by
        simp only [Boot.founded, Boot.siteAt, frames, frameSize, wordCount]
        omega)
      rfl,
    Boot.bit_opened (Boot.covers_remaining hosts gapMap_sound rfl)
      (by
        simp only [Storage.bits_load, Boot.founded, Boot.siteAt, frames,
          frameSize]
        omega)]
  simp only [Boot.remaining, frames, gapHost, Host.mapWith, Region.dropFront,
    List.nil_append, List.mem_cons, List.not_mem_nil, or_false,
    exists_eq_or_imp, exists_eq_left]
  simp [Region.isUsable, Region.HoldsFrame, Region.top, frameSize]
  omega

/-- The first request for a frame is granted frame 2, which stays hidden. -/
theorem exists_veiled_grant :
    ∃ ledger, Ledger.ReachableThrough .debug veiled gapMap ledger ∧
      ledger.machine.toAccessible .debug (Address.ofFrame 2) =
          .ok Address.null ∧
        ∃ granted,
          ledger.machine.allocate .debug 4096 =
            .ok (.ok (Address.ofFrame 2)) granted := by
  have one : framesFor (4096 : UInt64).toNat = 1 := by decide
  rcases exists_veiled_start with
    ⟨ledger, reachable, cursor, limit, clear⟩
  rcases reachable.exists_twin gapMap_sound (veiled_separates .debug) with
    ⟨base, twin, twins⟩
  have grantable := twins.account.runsGrantable gapMap_sound
  have bitmap := congrArg FrameTable.bitmap twins.table_eq
  have cursors := congrArg FrameTable.cursor twins.table_eq
  have limits := congrArg FrameTable.frameLimit twins.table_eq
  have scan := twins.account.fits.scanLimit_eq
  simp only [Machine.table] at cursors limits
  rw [bitmap] at clear
  have free : twin.machine.table.bitmap.FreeRun 2 1 := by
    intro frame lower upper
    exact (clear frame (by omega)).mpr (by omega)
  rcases
    grantable.granted_up_to .debug (by decide : (4096 : UInt64) ≠ 0)
      (by omega : _ ≤ 2) (by rw [one]; omega) (by rw [one]; exact free) with
    ⟨found, middle, -, upTo, served⟩
  rcases
    twins.request gapMap_sound (veiled_separates .debug)
      (by decide : (4096 : UInt64) ≠ 0) with
    ⟨first, reached, wrapped, grants⟩ | ⟨-, refused⟩
  · have inside := grants.inside
    have unused := grants.free
    rw [one] at inside unused
    have offered :=
      (clear first (by omega)).mp (unused first (Nat.le_refl _) (by omega))
    have same := served.symm.trans grants.twin_ran
    injection same with results _
    injection results with addresses
    have frames := congrArg Address.frame addresses
    have small := twins.account.fits.placed.lt_frameCount (by omega : first < _)
    rw [Address.frame_ofFrame_of_lt small,
      Address.frame_ofFrame_of_lt (Nat.lt_of_le_of_lt upTo (by decide))]
      at frames
    have two : first = 2 := by omega
    have hidden :
        ledger.machine.toAccessible .debug (Address.ofFrame 2) =
          .ok Address.null := by
      rw [Machine.toAccessible, twins.mapper_eq]
      rfl
    rw [two] at grants
    exact ⟨ledger, reachable, hidden, _, grants.ran⟩
  · rw [served] at refused
    cases refused

/-- What is granted and not exposed is free again. -/
theorem veiled_exposes :
    SoundMap gapMap ∧ veiled.Separates .debug gapMap ∧
      ∃ ledger, Ledger.ReachableThrough .debug veiled gapMap ledger ∧
        ∃ later,
          ledger.machine.allocateAccessible .debug 4096 =
              .ok (.error (.notAccessible (Address.ofFrame 2))) later ∧
            later.table.bitmap = ledger.machine.table.bitmap ∧
              later.allocator.usedPages =
                ledger.machine.allocator.usedPages := by
  rcases exists_veiled_grant with
    ⟨ledger, reachable, hidden, granted, ran⟩
  refine
    ⟨gapMap_sound, veiled_separates .debug, ledger, reachable, ?_⟩
  have outcome :=
    Ledger.ReachableThrough.exposes gapMap_sound (veiled_separates .debug)
      reachable 4096
  cases called : ledger.machine.allocateAccessible .debug 4096 with
  | ok result later =>
      rw [called] at outcome
      rcases result with ⟨refusal⟩ | ⟨accessible⟩
      · cases refusal with
        | notAccessible address =>
            rcases outcome with ⟨-, -, ⟨middle, same⟩, reverts⟩
            rw [ran] at same
            cases same
            rcases reverts.books_eq with ⟨cursor, books⟩
            exact ⟨later, rfl, reverts.bitmap_eq, by rw [books]⟩
        | outOfMemory pages =>
            have refused := outcome.2
            rw [ran] at refused
            cases refused
        | _ => exact outcome.elim
      · rcases outcome with ⟨proper, address, same, translated⟩
        rw [ran] at same
        cases same
        rw [hidden] at translated
        cases translated
        exact absurd rfl proper
  | error fault later =>
      rw [called] at outcome
      rcases outcome with ⟨address, middle, same, stopped⟩
      rw [ran] at same
      cases same
      rw [hidden] at stopped
      cases stopped

end Sample

end BootMemory
