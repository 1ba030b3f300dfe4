import BootMemory.Proofs.Frames.Completeness
import BootMemory.Proofs.Frames.Requests

/-!
# What memory holds does not matter

The bitmap lives in memory whose former contents are arbitrary, next to memory
that clients write to.  Two machines are alike if their books and logs are the
same and memory holds the same bitmap; elsewhere memory may differ.  Alike
machines give the same answers and stay alike, whatever is asked of them.

Setting up the allocator overwrites the whole bitmap, so two set-ups on
different memories end in alike machines.  `Machine.History` is a run of calls
with arbitrary writes outside the bitmap in between, and
`Boot.independent_of_memory` compares two such runs from the set-up on.  Nothing
is asked of the map, of the direct map or of the calls.
-/

namespace BootMemory

/-! ## Memories that agree at some addresses -/

namespace Memory

/-- Two memories read the same at some addresses. -/
def AgreeOn (places : UInt64 → Prop) (left right : Memory) : Prop :=
  ∀ address, places address → left.read address = right.read address

namespace AgreeOn

variable {places : UInt64 → Prop} {left middle right : Memory}

theorem refl (places : UInt64 → Prop) (memory : Memory) :
    AgreeOn places memory memory :=
  fun _ _ => rfl

theorem symm (agree : AgreeOn places left right) : AgreeOn places right left :=
  fun address inside => (agree address inside).symm

theorem trans
    (first : AgreeOn places left middle)
    (second : AgreeOn places middle right) : AgreeOn places left right :=
  fun address inside => (first address inside).trans (second address inside)

/-- The same fill keeps agreement, wherever it lies. -/
theorem fill
    (agree : AgreeOn places left right)
    (start : UInt64) (length : Nat) (byte : UInt8) :
    AgreeOn places (left.fill start length byte)
      (right.fill start length byte) := by
  intro address inside
  rw [read_fill, read_fill, agree address inside]

/-- The same write keeps agreement. -/
theorem write
    (agree : AgreeOn places left right)
    (start : UInt64) (bytes : Array UInt8) :
    AgreeOn places (left.write start bytes) (right.write start bytes) := by
  intro address inside
  rw [read_write, read_write, agree address inside]

end AgreeOn

end Memory

namespace Storage

/-- An address of the stretch that holds the bitmap. -/
def Spans (storage : Storage) (address : UInt64) : Prop :=
  Memory.distance storage.base.value address < storage.length

/-- After all bits were written it does not matter what was there. -/
theorem agree_fill (storage : Storage) (left right : Memory) (value : Bool) :
    Memory.AgreeOn storage.Spans (storage.fill left value)
      (storage.fill right value) := by
  intro address inside
  rw [Spans] at inside
  have written :
      ((storage.load left).fill value).bytes =
        ((storage.load right).fill value).bytes := by
    change Array.replicate _ _ = Array.replicate _ _
    rw [size_bytes_load, size_bytes_load]
  have size :
      ((storage.load right).fill value).bytes.size = storage.length := by
    rw [Bitmap.size_bytes_fill, size_bytes_load]
  rw [fill, fill, store, store, Memory.read_write, Memory.read_write, written,
    size, if_pos inside, if_pos inside]

end Storage

/-! ## Machines -/

namespace Machine

/-- Two machines differ at most in memory outside the bitmap. -/
structure Alike (storage : Storage) (machine other : Machine) : Prop where
  books : machine.allocator = other.allocator
  storage_eq : machine.allocator.storage = storage
  log : machine.log = other.log
  agree : Memory.AgreeOn storage.Spans machine.memory other.memory

namespace Alike

variable {storage : Storage} {machine middle other : Machine}

theorem symm (alike : machine.Alike storage other) :
    other.Alike storage machine where
  books := alike.books.symm
  storage_eq := by
    rw [← alike.books]
    exact alike.storage_eq
  log := alike.log.symm
  agree := alike.agree.symm

theorem trans
    (first : machine.Alike storage middle)
    (second : middle.Alike storage other) : machine.Alike storage other where
  books := first.books.trans second.books
  storage_eq := first.storage_eq
  log := first.log.trans second.log
  agree := first.agree.trans second.agree

/-- Writing to memory outside the bitmap. -/
theorem wrote
    (placed : machine.allocator.storage = storage) {memory : Memory}
    (outside :
      Memory.AgreeOn machine.allocator.storage.Spans machine.memory memory) :
    machine.Alike storage { machine with memory } where
  books := rfl
  storage_eq := placed
  log := rfl
  agree := by
    rw [← placed]
    exact outside

theorem table_eq (alike : machine.Alike storage other) :
    machine.table = other.table := by
  have bitmap := Storage.load_congr alike.agree
  rw [table, table, ← alike.books, alike.storage_eq, bitmap]

theorem record (event : Event) :
    Action.Agrees (Alike storage) (record event) (record event) := by
  refine .modify fun machine other alike => ?_
  exact
    ⟨alike.books, alike.storage_eq, congrArg (· ++ [event]) alike.log,
      alike.agree⟩

theorem onTable {Value : Type} (action : Action FrameTable Value) :
    Action.Agrees (Alike storage) (onTable action) (onTable action) := by
  refine (Action.Follows.refl action).focus (fun _ _ => table_eq) ?_
  rintro value machine other table _ alike rfl
  refine ⟨?_, alike.storage_eq, alike.log, ?_⟩
  · change Allocator.mk .. = Allocator.mk ..
    rw [alike.books]
  · change
      Memory.AgreeOn storage.Spans (machine.allocator.storage.store _ _)
        (other.allocator.storage.store _ _)
    rw [← alike.books]
    exact alike.agree.write _ _

/-- Both memories are filled at the same place. -/
theorem zeroFill
    (profile : Profile) (address : PhysicalAddress) (length : Nat) :
    Action.Agrees (Alike storage) (zeroFill profile address length)
      (zeroFill profile address length) := by
  unfold Machine.zeroFill
  refine .bind_get fun machine other alike => ?_
  rw [← alike.books, Mapper.zeroFill, Mapper.zeroFill, Mapper.fill, Mapper.fill]
  cases machine.allocator.mapper.reach profile address with
  | error fault =>
      refine .bind_lift (.refl _) fun memory stopped => ?_
      cases stopped
  | ok reached =>
      change
        Action.Follows (Alike storage) (fun _ => Alike storage)
          (set <| Machine.mk machine.allocator
            (machine.memory.fill reached.value length 0) machine.log)
          (set <| Machine.mk machine.allocator
            (other.memory.fill reached.value length 0) other.log)
      exact .set ⟨rfl, alike.storage_eq, alike.log, alike.agree.fill _ _ 0⟩

theorem addUsed (profile : Profile) (pages : Nat) :
    Action.Agrees (Alike storage) (addUsed profile pages)
      (addUsed profile pages) := by
  unfold Machine.addUsed
  refine .bind_get fun machine other alike => ?_
  rw [← alike.books]
  exact
    .bind_lift (.refl _) fun usedPages _ =>
      .set ⟨rfl, alike.storage_eq, alike.log, alike.agree⟩

/-- Alike machines stay alike at every step of a request. -/
theorem simulates (storage : Storage) (profile : Profile) :
    Simulates (Alike storage) profile profile :=
  .of_books books table_eq record
    (fun count => onTable (FrameTable.claimRun profile count))
    (fun first count => onTable (FrameTable.release profile first count))
    (zeroFill profile) (addUsed profile)

end Alike

/-- What a machine answers, an alike one answers too. -/
theorem Alike.exists_perform
    {storage : Storage} {machine other later : Machine} {profile : Profile}
    {call : Call} {answer : Answer}
    (alike : machine.Alike storage other)
    (ran : machine.perform profile call = .ok answer later) :
    ∃ ending, other.perform profile call = .ok answer ending ∧
      later.Alike storage ending :=
  (simulates storage profile).perform call _ _ _ _ alike ran

/--
A run of calls.  Before each of them and at the end, memory outside the bitmap
is written to.
-/
inductive History (profile : Profile) :
    Machine → List Call → List Answer → Machine → Prop where
  | done {start : Machine} {memory : Memory}
      (outside :
        Memory.AgreeOn start.allocator.storage.Spans start.memory memory) :
      History profile start [] [] { start with memory }
  | called {start later finish : Machine} {memory : Memory} {call : Call}
      {answer : Answer} {calls : List Call} {answers : List Answer}
      (outside :
        Memory.AgreeOn start.allocator.storage.Spans start.memory memory)
      (ran :
        perform profile call { start with memory } = .ok answer later)
      (rest : History profile later calls answers finish) :
      History profile start (call :: calls) (answer :: answers) finish

/-- Runs of the same calls from alike machines have the same answers. -/
theorem History.alike
    {profile : Profile} {storage : Storage}
    {leftStart rightStart left right : Machine} {calls : List Call}
    {leftAnswers rightAnswers : List Answer}
    (leftRun : History profile leftStart calls leftAnswers left)
    (rightRun : History profile rightStart calls rightAnswers right)
    (alike : leftStart.Alike storage rightStart) :
    leftAnswers = rightAnswers ∧ left.Alike storage right := by
  induction leftRun generalizing rightStart rightAnswers with
  | done leftOutside =>
      cases rightRun with
      | done rightOutside =>
          have leftWrote := Alike.wrote alike.storage_eq leftOutside
          have rightWrote := Alike.wrote alike.symm.storage_eq rightOutside
          exact ⟨rfl, (leftWrote.symm.trans alike).trans rightWrote⟩
  | called leftOutside leftRan _ inductionHypothesis =>
      cases rightRun with
      | called rightOutside rightRan rightRest =>
          have leftWrote := Alike.wrote alike.storage_eq leftOutside
          have rightWrote := Alike.wrote alike.symm.storage_eq rightOutside
          rcases
            ((leftWrote.symm.trans alike).trans rightWrote).exists_perform
              leftRan with
            ⟨ending, same, still⟩
          rw [same] at rightRan
          cases rightRan
          rcases inductionHypothesis rightRest still with ⟨answers, finish⟩
          exact ⟨congrArg (_ :: ·) answers, finish⟩

end Machine

/-! ## Setting up -/

namespace Boot

/--
Two set-ups with the same map and log.  Once there is a bitmap, memory holds
the same one.
-/
structure Alike (placed : Option Storage) (boot other : Boot) : Prop where
  map : boot.map = other.map
  log : boot.log = other.log
  agree : ∀ storage, placed = some storage →
    Memory.AgreeOn storage.Spans boot.memory other.memory

namespace Alike

variable {placed : Option Storage} {storage : Storage} {boot other : Boot}

theorem symm (alike : boot.Alike placed other) : other.Alike placed boot where
  map := alike.map.symm
  log := alike.log.symm
  agree storage present := (alike.agree storage present).symm

theorem record (event : Event) :
    Action.Agrees (Alike placed) (record event) (record event) := by
  refine .modify fun boot other alike => ?_
  exact ⟨alike.map, congrArg (· ++ [event]) alike.log, alike.agree⟩

theorem reserveFrameZero (profile : Profile) :
    Action.Agrees (Alike placed) (reserveFrameZero profile)
      (reserveFrameZero profile) := by
  unfold Boot.reserveFrameZero
  refine .bind_get fun boot other alike => ?_
  rw [← alike.map]
  refine .bind_lift (.refl _) fun map _ => ?_
  have moved : Alike placed { boot with map } { other with map } :=
    ⟨rfl, alike.log, alike.agree⟩
  exact .bind_set moved (.bind_if (record _) (.pure _))

/-- Marking the whole bitmap makes up for what memory held before. -/
theorem placeBitmap
    (profile : Profile) (mapper : Mapper) (bytes : Nat) (host : Host) :
    Action.Follows (Alike none) (fun placed => Alike placed.toOption)
      (placeBitmap profile mapper bytes host)
      (placeBitmap profile mapper bytes host) := by
  unfold Boot.placeBitmap
  refine .bind_lift (.refl _) fun reached _ => ?_
  refine .bind_lift (.refl _) fun bits _ => ?_
  cases Storage.bind reached bytes bits with
  | error refusal => exact .pure_of fun _ _ alike => alike
  | ok storage =>
      have filled : ∀ boot other, Alike none boot other →
          Alike (some storage)
            { boot with memory := storage.fill boot.memory true }
            { other with memory := storage.fill other.memory true } := by
        rintro boot other alike
        refine ⟨alike.map, alike.log, ?_⟩
        rintro _ ⟨⟩
        exact storage.agree_fill boot.memory other.memory true
      have carve : ∀ map boot other, Alike (some storage) boot other →
          Alike (some storage) { boot with map } { other with map } :=
        fun _ _ _ alike => ⟨rfl, alike.log, alike.agree⟩
      refine .bind_modify filled ?_
      refine .bind_lift (.refl _) fun carved _ => ?_
      exact
        .bind_modify (carve (host.mapWith carved)) <|
          .pure_of fun _ _ alike => alike

theorem onBitmap (action : Action Bitmap Unit) :
    Action.Agrees (Alike (some storage)) (onMemory (storage.onBitmap action))
      (onMemory (storage.onBitmap action)) := by
  have onStorage :
      Action.Agrees (Memory.AgreeOn storage.Spans) (storage.onBitmap action)
        (storage.onBitmap action) := by
    refine (Action.Follows.refl action).focus
      (fun _ _ => Storage.load_congr) ?_
    rintro done memory other bitmap _ agree rfl
    exact agree.write _ _
  refine onStorage.focus (fun _ _ alike => alike.agree storage rfl) ?_
  rintro done boot other memory remembered alike agree
  refine ⟨alike.map, alike.log, ?_⟩
  rintro _ ⟨⟩
  exact agree

theorem markFree (profile : Profile) :
    Action.Agrees (Alike (some storage)) (markFree profile storage)
      (markFree profile storage) := by
  unfold Boot.markFree
  refine .bind_get fun boot other alike => ?_
  rw [← alike.map]
  exact (onBitmap _).bind fun _ => onBitmap _

theorem start
    {allocator : Allocator}
    (alike : boot.Alike (some allocator.storage) other) :
    (boot.start allocator).Alike allocator.storage (other.start allocator) where
  books := rfl
  storage_eq := rfl
  log := alike.log
  agree := alike.agree allocator.storage rfl

theorem withAllocator
    {allocator : Allocator} (placed : allocator.storage = storage)
    {action : Action Machine Unit}
    (agrees : Action.Agrees (Machine.Alike storage) action action) :
    Action.Agrees (Alike (some storage)) (withAllocator allocator action)
      (withAllocator allocator action) := by
  subst placed
  refine agrees.focus (fun _ _ alike => alike.start) ?_
  rintro done boot other machine piece alike still
  refine ⟨alike.map, still.log, ?_⟩
  rintro _ ⟨⟩
  exact still.agree

/-- Set-ups on different memories stay alike at every step. -/
theorem simulates (profile : Profile) (mapper : Mapper) :
    Simulates Alike mapper profile profile where
  map_eq alike := alike.map
  census _ := .refl _
  add _ _ := .refl _
  bitmapBytesFor _ := .refl _
  toVirtual _ := .refl _
  record _ := record
  reserveFrameZero := reserveFrameZero profile
  placeBitmap := placeBitmap profile mapper
  markFree _ := markFree profile
  info storage _ placed _ :=
    withAllocator placed (Machine.Alike.simulates storage profile).info

/-- A set-up has the same result and adjusts the map alike. -/
theorem exists_setUp
    {profile : Profile} {mapper : Mapper}
    {result : Except AllocError Allocator} {adjusted : List Region}
    {memory : Memory} {reported : Log}
    (alike : boot.Alike none other)
    (ran :
      boot.setUp profile mapper = .ok result ⟨adjusted, memory, reported⟩) :
    ∃ ending,
      other.setUp profile mapper = .ok result ⟨adjusted, ending, reported⟩ := by
  rcases (simulates profile mapper).setUp _ _ _ _ alike ran with
    ⟨⟨map, ending, log⟩, same, ended, -⟩
  rcases ended with ⟨rfl, rfl, -⟩
  exact ⟨ending, same⟩

end Alike

/--
A set-up and the calls after it do not depend on what memory holds, nor on what
is written to it outside the bitmap in the meantime.
-/
theorem independent_of_memory
    (profile : Profile) (mapper : Mapper) (map : List Region) (log : Log)
    (leftMemory rightMemory : Memory) :
    (∀ (result : Except AllocError Allocator) (adjusted : List Region)
        (reported : Log),
      (∃ memory,
        setUp profile mapper ⟨map, leftMemory, log⟩ =
          .ok result ⟨adjusted, memory, reported⟩) ↔
      ∃ memory,
        setUp profile mapper ⟨map, rightMemory, log⟩ =
          .ok result ⟨adjusted, memory, reported⟩) ∧
    ∀ (allocator : Allocator) (leftBoot rightBoot : Boot)
        (calls : List Machine.Call)
        (leftAnswers rightAnswers : List Machine.Answer)
        (left right : Machine),
      setUp profile mapper ⟨map, leftMemory, log⟩ =
          .ok (.ok allocator) leftBoot →
        setUp profile mapper ⟨map, rightMemory, log⟩ =
            .ok (.ok allocator) rightBoot →
          Machine.History profile (leftBoot.start allocator) calls
              leftAnswers left →
            Machine.History profile (rightBoot.start allocator) calls
                rightAnswers right →
              leftAnswers = rightAnswers ∧ left.log = right.log ∧
                left.stats = right.stats ∧
                (∀ address,
                  left.isPageUsed address = right.isPageUsed address) ∧
                ∀ call answer,
                  (∃ later,
                    left.perform profile call = .ok answer later) ↔
                  ∃ later, right.perform profile call = .ok answer later := by
  have start :
      Alike none ⟨map, leftMemory, log⟩ ⟨map, rightMemory, log⟩ :=
    ⟨rfl, rfl, nofun⟩
  constructor
  · intro result adjusted reported
    constructor
    · rintro ⟨memory, ran⟩
      exact start.exists_setUp ran
    · rintro ⟨memory, ran⟩
      exact start.symm.exists_setUp ran
  · intro allocator leftBoot rightBoot calls leftAnswers rightAnswers left right
      leftSetUp rightSetUp leftRun rightRun
    rcases
      (Alike.simulates profile mapper).setUp _ _ _ _ start leftSetUp with
      ⟨ending, same, ended, -⟩
    rw [same] at rightSetUp
    cases rightSetUp
    rcases leftRun.alike rightRun ended.start with ⟨answers, alike⟩
    have kept := Machine.Alike.simulates allocator.storage profile
    refine
      ⟨answers, alike.log, kept.stats_eq alike, kept.isPageUsed_eq alike, ?_⟩
    intro call answer
    constructor
    · rintro ⟨later, ran⟩
      rcases alike.exists_perform ran with ⟨ending, same, -⟩
      exact ⟨ending, same⟩
    · rintro ⟨later, ran⟩
      rcases alike.symm.exists_perform ran with ⟨ending, same, -⟩
      exact ⟨ending, same⟩

end Boot

namespace Sample

/-- Memory in which the frames of the sample hold ones. -/
def dirtyMemory : Memory := Memory.zero.fill offset 24576 255

/-- The sample on clean and on dirty memory, with a request in both. -/
theorem gap_independent_of_memory :
    ∃ allocator leftBoot rightBoot answers left right,
      Boot.setUp .debug (.direct ⟨offset⟩) ⟨gapMap, .zero, []⟩ =
          .ok (.ok allocator) leftBoot ∧
        Boot.setUp .debug (.direct ⟨offset⟩) ⟨gapMap, dirtyMemory, []⟩ =
          .ok (.ok allocator) rightBoot ∧
        Machine.History .debug (leftBoot.start allocator)
          [.allocate 8192] answers left ∧
        Machine.History .debug (rightBoot.start allocator)
          [.allocate 8192] answers right ∧
        left.stats = right.stats := by
  have history : ∀ {memory : Memory} {middle : Boot} {allocator : Allocator},
      Boot.setUp .debug (.direct ⟨offset⟩) ⟨gapMap, memory, []⟩ =
          .ok (.ok allocator) middle →
        ∃ answers later,
          Machine.History .debug (middle.start allocator) [.allocate 8192]
            answers later := by
    intro memory middle allocator ran
    rcases exists_gap_answer ran 8192 with ⟨result, later, served⟩
    exact
      ⟨_, _,
        .called (.refl _ _) (Action.bind_of_ok served) (.done (.refl _ _))⟩
  rcases exists_gap_setUp .debug .zero with ⟨leftBoot, leftSetUp⟩
  have independent :=
    Boot.independent_of_memory .debug (.direct ⟨offset⟩) gapMap [] .zero
      dirtyMemory
  rcases (independent.1 _ _ _).mp ⟨_, leftSetUp⟩ with ⟨memory, rightSetUp⟩
  rcases history leftSetUp with ⟨answers, left, leftRun⟩
  rcases history rightSetUp with ⟨others, right, rightRun⟩
  rcases
    independent.2 _ _ _ _ _ _ _ _ leftSetUp rightSetUp leftRun rightRun with
    ⟨rfl, -, books, -⟩
  exact
    ⟨_, _, _, _, left, right, leftSetUp, rightSetUp, leftRun, rightRun, books⟩

end Sample

end BootMemory
