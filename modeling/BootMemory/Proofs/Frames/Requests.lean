import BootMemory.Proofs.Calls
import BootMemory.Proofs.Simulation

/-!
# Requests and the set-up step by step

Every request on a machine is put together from a few steps: the search for
frames and their release, filling memory with zeros, counting pages, the
translation of addresses, and reports.  Two machines that are related and stay
so at each of these steps give the same answers to every call.

`Machine.Simulates` lists the steps for a relation of machines and a pair of
profiles, and `Machine.Simulates.perform` is the result for whole calls.
`Boot.Simulates` and `Boot.Simulates.setUp` do the same for setting up the
allocator, where the relation may depend on the bitmap once there is one.
-/

namespace BootMemory

/-! ## Requests -/

namespace Machine

/-- A relation of machines that the steps of all requests keep. -/
structure Simulates
    (Alike : Machine → Machine → Prop) (leading trailing : Profile) :
    Prop where
  record : ∀ event, Action.Agrees Alike (record event) (record event)
  claimRun : ∀ count,
    Action.Agrees Alike (onTable (FrameTable.claimRun leading count))
      (onTable (FrameTable.claimRun trailing count))
  release : ∀ first count,
    Action.Agrees Alike (onTable (FrameTable.release leading first count))
      (onTable (FrameTable.release trailing first count))
  mul : ∀ left right,
    Profile.Agrees (leading.mul left right) (trailing.mul left right)
  zeroFill : ∀ address length,
    Action.Agrees Alike (zeroFill leading address length)
      (zeroFill trailing address length)
  addUsed : ∀ pages,
    Action.Agrees Alike (addUsed leading pages) (addUsed trailing pages)
  toAccessible : ∀ {machine other}, Alike machine other → ∀ address,
    Profile.Agrees (machine.toAccessible leading address)
      (other.toAccessible trailing address)
  fromAccessible : ∀ {machine other}, Alike machine other → ∀ address,
    Profile.Agrees (machine.fromAccessible leading address)
      (other.fromAccessible trailing address)
  stats_eq : ∀ {machine other}, Alike machine other →
    machine.stats = other.stats
  display : ∀ stats : Stats,
    Profile.Agrees (stats.display leading) (stats.display trailing)
  isPageUsed_eq : ∀ {machine other}, Alike machine other → ∀ address,
    machine.isPageUsed address = other.isPageUsed address

namespace Simulates

variable {Alike : Machine → Machine → Prop} {leading trailing : Profile}

/-- Machines with the same books and the same account read them alike. -/
theorem of_books
    {profile : Profile}
    (books : ∀ {machine other}, Alike machine other →
      machine.allocator = other.allocator)
    (tables : ∀ {machine other}, Alike machine other →
      machine.table = other.table)
    (record : ∀ event,
      Action.Agrees Alike (Machine.record event) (Machine.record event))
    (claimRun : ∀ count,
      Action.Agrees Alike (onTable (FrameTable.claimRun profile count))
        (onTable (FrameTable.claimRun profile count)))
    (release : ∀ first count,
      Action.Agrees Alike (onTable (FrameTable.release profile first count))
        (onTable (FrameTable.release profile first count)))
    (zeroFill : ∀ address length,
      Action.Agrees Alike (Machine.zeroFill profile address length)
        (Machine.zeroFill profile address length))
    (addUsed : ∀ pages,
      Action.Agrees Alike (Machine.addUsed profile pages)
        (Machine.addUsed profile pages)) :
    Simulates Alike profile profile where
  record
  claimRun
  release
  mul _ _ := .refl _
  zeroFill
  addUsed
  toAccessible := by
    intro machine other alike address
    rw [Machine.toAccessible, Machine.toAccessible, books alike]
    exact .refl _
  fromAccessible := by
    intro machine other alike address
    rw [Machine.fromAccessible, Machine.fromAccessible, books alike]
    exact .refl _
  stats_eq := by
    intro machine other alike
    rw [stats, stats, books alike]
  display _ := .refl _
  isPageUsed_eq := by
    intro machine other alike address
    rw [isPageUsed, isPageUsed, tables alike]

theorem allocate
    (simulates : Simulates Alike leading trailing) (size : UInt64) :
    Action.Agrees Alike (allocate leading size) (allocate trailing size) := by
  unfold Machine.allocate
  refine .ite (.pure _) ?_
  refine (simulates.claimRun _).bind fun search => ?_
  refine .bind_if (simulates.record _) ?_
  cases search.first with
  | none => exact (simulates.record _).bind fun _ => .pure _
  | some first =>
      refine .bind_lift (simulates.mul _ _) fun length _ => ?_
      refine (simulates.zeroFill _ length).bind fun _ => ?_
      refine (simulates.addUsed _).bind fun _ => ?_
      exact (simulates.record _).bind fun _ => .pure _

theorem free
    (simulates : Simulates Alike leading trailing)
    (address : PhysicalAddress) (size : UInt64) :
    Action.Agrees Alike (free leading address size)
      (free trailing address size) := by
  unfold Machine.free
  refine .ite (.pure _) ?_
  exact (simulates.release _ _).bind fun _ => simulates.record _

theorem info (simulates : Simulates Alike leading trailing) :
    Action.Agrees Alike (info leading) (info trailing) := by
  unfold Machine.info
  refine .bind_get fun machine other alike => ?_
  rw [simulates.stats_eq alike]
  exact .bind_lift (simulates.display _) fun _ _ => simulates.record _

theorem expose
    (simulates : Simulates Alike leading trailing)
    (address : PhysicalAddress) :
    Action.Agrees Alike (expose leading address) (expose trailing address) := by
  unfold Machine.expose
  refine .ite (.pure _) ?_
  exact .bind_get fun _ _ alike => .lift (simulates.toAccessible alike address)

theorem allocateAccessible
    (simulates : Simulates Alike leading trailing) (size : UInt64) :
    Action.Agrees Alike (allocateAccessible leading size)
      (allocateAccessible trailing size) := by
  unfold Machine.allocateAccessible
  refine (simulates.allocate size).bind fun result => ?_
  cases result with
  | error refusal => exact .pure _
  | ok address =>
      refine (simulates.expose address).bind fun accessible => ?_
      exact
        .ite ((simulates.free address size).bind fun _ => .pure _) (.pure _)

theorem freeAccessible
    (simulates : Simulates Alike leading trailing)
    (accessible : VirtualAddress) (size : UInt64) :
    Action.Agrees Alike (freeAccessible leading accessible size)
      (freeAccessible trailing accessible size) := by
  unfold Machine.freeAccessible
  refine .bind_get fun _ _ alike => ?_
  exact
    .bind_lift (simulates.fromAccessible alike accessible) fun address _ =>
      simulates.free address size

/-- Related machines give the same answer to every call. -/
theorem perform
    (simulates : Simulates Alike leading trailing) (call : Call) :
    Action.Agrees Alike (perform leading call) (perform trailing call) := by
  cases call with
  | allocate size => exact (simulates.allocate size).bind fun _ => .pure _
  | free address size =>
      exact (simulates.free address size).bind fun _ => .pure _
  | allocateAccessible size =>
      exact (simulates.allocateAccessible size).bind fun _ => .pure _
  | freeAccessible address size =>
      exact (simulates.freeAccessible address size).bind fun _ => .pure _
  | info => exact simulates.info.bind fun _ => .pure _
  | stats =>
      refine .bind_get fun _ _ alike => ?_
      rw [simulates.stats_eq alike]
      exact .pure _
  | isPageUsed address =>
      refine .bind_get fun _ _ alike => ?_
      rw [simulates.isPageUsed_eq alike]
      exact .pure _

end Simulates

end Machine

/-! ## Setting up -/

namespace Boot

/--
A relation of set-ups that the steps of setting up keep.  It may say more once
the bitmap has its place.
-/
structure Simulates
    (Alike : Option Storage → Boot → Boot → Prop) (mapper : Mapper)
    (leading trailing : Profile) : Prop where
  map_eq : ∀ {placed boot other}, Alike placed boot other →
    boot.map = other.map
  census : ∀ map,
    Profile.Agrees (Census.take leading map) (Census.take trailing map)
  add : ∀ left right,
    Profile.Agrees (leading.add left right) (trailing.add left right)
  bitmapBytesFor : ∀ highestRam,
    Profile.Agrees (bitmapBytesFor leading highestRam)
      (bitmapBytesFor trailing highestRam)
  toVirtual : ∀ address,
    Profile.Agrees (mapper.toVirtual leading address)
      (mapper.toVirtual trailing address)
  record : ∀ placed event,
    Action.Agrees (Alike placed) (record event) (record event)
  reserveFrameZero :
    Action.Agrees (Alike none) (reserveFrameZero leading)
      (reserveFrameZero trailing)
  placeBitmap : ∀ bytes host,
    Action.Follows (Alike none) (fun placed => Alike placed.toOption)
      (placeBitmap leading mapper bytes host)
      (placeBitmap trailing mapper bytes host)
  markFree : ∀ storage,
    Action.Agrees (Alike (some storage)) (markFree leading storage)
      (markFree trailing storage)
  info : ∀ storage allocator,
    allocator.storage = storage → allocator.mapper = mapper →
      Action.Agrees (Alike (some storage))
        (withAllocator allocator (Machine.info leading))
        (withAllocator allocator (Machine.info trailing))

/-- Related set-ups have the same result, an allocator with the given mapper. -/
theorem Simulates.setUp
    {Alike : Option Storage → Boot → Boot → Prop} {mapper : Mapper}
    {leading trailing : Profile}
    (simulates : Simulates Alike mapper leading trailing) :
    Action.Follows (Alike none)
      (fun result boot other =>
        Alike (result.toOption.map Allocator.storage) boot other ∧
          ∀ allocator, result = .ok allocator → allocator.mapper = mapper)
      (setUp leading mapper) (setUp trailing mapper) := by
  unfold Boot.setUp
  refine .bind_get fun boot other alike => ?_
  rw [← simulates.map_eq alike]
  refine .bind_lift (simulates.census boot.map) fun census _ => ?_
  cases census.lowestUsable with
  | none =>
      refine (simulates.record none _).bind fun _ => ?_
      exact .pure_of fun _ _ alike => ⟨alike, nofun⟩
  | some lowest =>
      refine simulates.reserveFrameZero.bind fun reserved => ?_
      refine .bind_lift (simulates.add _ reserved) fun occupied _ => ?_
      refine .bind_lift (simulates.bitmapBytesFor _) fun bytes _ => ?_
      refine .bind_get fun trimmed other alike => ?_
      rw [← simulates.map_eq alike]
      cases Host.find bytes trimmed.map with
      | none =>
          refine (simulates.record none _).bind fun _ => ?_
          exact .pure_of fun _ _ alike => ⟨alike, nofun⟩
      | some host =>
          refine (simulates.placeBitmap bytes host).bind fun placed => ?_
          cases placed with
          | error refusal => exact .pure_of fun _ _ alike => ⟨alike, nofun⟩
          | ok storage =>
              refine .bind_lift (simulates.add _ _) fun usedPages _ => ?_
              refine .bind_lift (simulates.toVirtual _) fun accessible _ => ?_
              refine (simulates.record (some storage) _).bind fun _ => ?_
              refine (simulates.markFree storage).bind fun _ => ?_
              refine (simulates.info storage _ ?_ ?_).bind fun _ => ?_
              · rfl
              · rfl
              · refine .pure_of fun _ _ alike => ⟨alike, ?_⟩
                rintro allocator ⟨⟩
                rfl

end Boot

end BootMemory
