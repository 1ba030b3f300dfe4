import BootMemory.Size
import Std.Data.ExtTreeMap

/-!
# Memory

Every 64-bit address holds a byte.  The bytes are kept in pages of 4096, and
only pages with a byte other than zero are kept, so that a large memory that is
mostly zero is small.

Memories have an extensional theory: `Memory.ext_read` says that two memories
are equal as soon as every address reads the same, and `read_overwrite` and
`read_fill` say what an address reads after a write.  A stretch of addresses is
given by its start and its length.  It may run over the end of the address
space and go on at zero, so whether an address lies in it is asked through its
distance from the start, counted upwards modulo `wordCount`.
-/

namespace BootMemory

/-- The bytes of one page. -/
abbrev Page := Vector UInt8 4096

/-- The page of zeros. -/
def Page.blank : Page := Vector.replicate 4096 0

/-- A byte for every 64-bit address. -/
structure Memory where
  pages : Std.ExtTreeMap Nat Page
  /-- Pages are numbered below `frameCount`, and blank ones are left out. -/
  canonical : ∀ number page, pages[number]? = some page →
    number < frameCount ∧ page ≠ Page.blank

namespace Memory

/-- The memory of zeros. -/
def zero : Memory where
  pages := ∅
  canonical := by simp

/-- The page with a number. -/
def page (memory : Memory) (number : Nat) : Page :=
  memory.pages[number]?.getD Page.blank

/-- The byte at an address. -/
def read (memory : Memory) (address : UInt64) : UInt8 :=
  (memory.page (address.toNat / 4096)).get
    ⟨address.toNat % 4096, Nat.mod_lt _ (by decide)⟩

/-- Replace the page with a number; there is none from `frameCount` on. -/
def setPage (memory : Memory) (number : Nat) (page : Page) : Memory :=
  if inside : number < frameCount then
    if blank : page = Page.blank then
      { pages := memory.pages.erase number
        canonical := by
          intro other stored found
          rw [Std.ExtTreeMap.getElem?_erase] at found
          split at found
          · cases found
          · exact memory.canonical other stored found }
    else
      { pages := memory.pages.insert number page
        canonical := by
          intro other stored found
          rw [Std.ExtTreeMap.getElem?_insert] at found
          split at found
          · rename_i same
            cases found
            exact ⟨Std.LawfulEqCmp.eq_of_compare same ▸ inside, blank⟩
          · exact memory.canonical other stored found }
  else
    memory

/-- How far an address lies above a start, modulo `wordCount`. -/
def distance (start address : UInt64) : Nat := (address - start).toNat

/-- The numbers of the pages that a stretch of addresses touches. -/
def pageNumbers (start : UInt64) (length : Nat) : List Nat :=
  (List.range ((start.toNat % 4096 + length + 4095) / 4096)).map fun index =>
    (start.toNat / 4096 + index) % frameCount

/-- A page with the part of it that lies in a stretch replaced. -/
def patch (start : UInt64) (length : Nat) (content : Nat → UInt8)
    (number : Nat) (page : Page) : Page :=
  let base := UInt64.ofNat (number * 4096)
  Vector.ofFn fun index =>
    let reached := distance start (base + UInt64.ofNat index)
    if reached < length then content reached else page[index]

/-- Replace the bytes of a stretch; the content is given by distance. -/
def overwrite (memory : Memory) (start : UInt64) (length : Nat)
    (content : Nat → UInt8) : Memory :=
  (pageNumbers start length).foldl
    (fun memory number =>
      memory.setPage number
        (patch start length content number (memory.page number)))
    memory

/-- Replace the bytes of a stretch by zeros; absent pages are so already. -/
def clear (memory : Memory) (start : UInt64) (length : Nat) : Memory :=
  (pageNumbers start length).foldl
    (fun memory number =>
      match memory.pages[number]? with
      | none => memory
      | some page =>
          memory.setPage number (patch start length (fun _ => 0) number page))
    memory

/-- Replace the bytes of a stretch by copies of one byte. -/
def fill (memory : Memory) (start : UInt64) (length : Nat) (byte : UInt8) :
    Memory :=
  if byte = 0 then
    memory.clear start length
  else
    memory.overwrite start length fun _ => byte

/-- Replace the bytes from a start on. -/
def write (memory : Memory) (start : UInt64) (bytes : Array UInt8) : Memory :=
  memory.overwrite start bytes.size fun index => bytes.getD index 0

/-- The bytes of a stretch. -/
def readRange (memory : Memory) (start : UInt64) (length : Nat) : Array UInt8 :=
  Array.ofFn fun index : Fin length => memory.read (start + UInt64.ofNat index)

@[simp]
theorem size_readRange (memory : Memory) (start : UInt64) (length : Nat) :
    (memory.readRange start length).size = length := by
  simp [readRange]

end Memory

end BootMemory
