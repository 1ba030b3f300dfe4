import BootMemory.Memory
import Mathlib.Algebra.Group.Nat.Defs

/-!
# Reading back what was written

The memory operations work page by page.  This module describes them through
`Memory.read` alone: `read_overwrite`, `read_fill` and `read_write` say what an
address reads afterwards, and `ext_read` says that nothing else of a memory can
be seen.  From then on pages are not mentioned again.

Both bulk operations fold a step over the pages that a stretch touches.  A step
that patches one page and leaves the others alone is captured by `Patches`, so
overwriting and clearing share one argument.
-/

namespace BootMemory.Memory

/-! ## Pages -/

theorem page_setPage
    (memory : Memory) {number : Nat} (inside : number < frameCount)
    (page : Page) (other : Nat) :
    (memory.setPage number page).page other =
      if other = number then page else memory.page other := by
  by_cases blank : page = Page.blank
  · have erased :
        (memory.setPage number page).pages = memory.pages.erase number := by
      rw [setPage, dif_pos inside, dif_pos blank]
    unfold Memory.page
    rw [erased, Std.ExtTreeMap.getElem?_erase]
    by_cases same : other = number
    · simp [same, blank]
    · simp [same, Ne.symm same]
  · have inserted :
        (memory.setPage number page).pages =
          memory.pages.insert number page := by
      rw [setPage, dif_pos inside, dif_neg blank]
    unfold Memory.page
    rw [inserted, Std.ExtTreeMap.getElem?_insert]
    by_cases same : other = number
    · simp [same]
    · simp [same, Ne.symm same]

theorem get_eq_getElem (page : Page) {index : Nat} (bound : index < 4096) :
    page.get ⟨index, bound⟩ = page[index] := rfl

/-- Patching a page twice is patching it once. -/
theorem patch_patch
    (start : UInt64) (length : Nat) (content : Nat → UInt8)
    (number : Nat) (page : Page) :
    patch start length content number
        (patch start length content number page) =
      patch start length content number page := by
  apply Vector.ext
  intro index bound
  simp only [patch, Vector.getElem_ofFn, Fin.getElem_fin]
  split
  · rfl
  · rfl

/-- A step that patches the page with a given number and no other page. -/
def Patches
    (start : UInt64) (length : Nat) (content : Nat → UInt8)
    (step : Memory → Nat → Memory) : Prop :=
  ∀ memory number, number < frameCount → ∀ other,
    (step memory number).page other =
      if other = number then
        patch start length content number (memory.page number)
      else
        memory.page other

theorem page_foldl
    {start : UInt64} {length : Nat} {content : Nat → UInt8}
    {step : Memory → Nat → Memory}
    (patches : Patches start length content step)
    (numbers : List Nat) (inside : ∀ number ∈ numbers, number < frameCount)
    (memory : Memory) (other : Nat) :
    (numbers.foldl step memory).page other =
      if other ∈ numbers then
        patch start length content other (memory.page other)
      else
        memory.page other := by
  induction numbers generalizing memory with
  | nil => simp
  | cons number numbers inductionHypothesis =>
      have headInside : number < frameCount := inside number (by simp)
      have tailInside : ∀ later ∈ numbers, later < frameCount := by
        intro later member
        exact inside later (List.mem_cons_of_mem _ member)
      rw [List.foldl_cons, inductionHypothesis tailInside,
        patches memory number headInside other]
      by_cases same : other = number
      · subst same
        simp [patch_patch]
      · simp [same]

theorem pageNumbers_lt
    {start : UInt64} {length number : Nat}
    (member : number ∈ pageNumbers start length) :
    number < frameCount := by
  simp only [pageNumbers, List.mem_map] at member
  rcases member with ⟨index, -, rfl⟩
  exact Nat.mod_lt _ (by decide)

theorem toNat_eq_start_add_distance (start address : UInt64) :
    address.toNat = (start.toNat + distance start address) % wordCount := by
  have bound := address.toNat_lt
  have startBound := start.toNat_lt
  simp only [distance, UInt64.toNat_sub, wordCount]
  omega

theorem distance_lt (start address : UInt64) :
    distance start address < wordCount :=
  (address - start).toNat_lt

theorem distance_add_ofNat
    (start : UInt64) {index : Nat} (small : index < wordCount) :
    distance start (start + UInt64.ofNat index) = index := by
  have startBound := start.toNat_lt
  simp only [distance, UInt64.toNat_sub, UInt64.toNat_add, UInt64.toNat_ofNat',
    wordCount] at small ⊢
  omega

theorem add_ofNat_distance (start address : UInt64) :
    start + UInt64.ofNat (distance start address) = address := by
  apply UInt64.toNat_inj.mp
  rw [toNat_eq_start_add_distance start address, UInt64.toNat_add,
    UInt64.toNat_ofNat', Nat.mod_eq_of_lt (distance_lt start address)]

/-- A stretch that stays inside the address space holds an interval of it. -/
theorem distance_lt_iff
    {start address : UInt64} {length : Nat}
    (inside : start.toNat + length ≤ wordCount) :
    distance start address < length ↔
      start.toNat ≤ address.toNat ∧
        address.toNat < start.toNat + length := by
  have bound := address.toNat_lt
  have startBound := start.toNat_lt
  simp only [distance, UInt64.toNat_sub, wordCount] at inside ⊢
  omega

/-- The page of every address in a stretch is among those touched. -/
theorem page_mem_pageNumbers
    {start address : UInt64} {length : Nat}
    (inside : distance start address < length) :
    address.toNat / 4096 ∈ pageNumbers start length := by
  simp only [pageNumbers, List.mem_map, List.mem_range]
  refine
    ⟨(start.toNat % 4096 + distance start address) / 4096, ?_, ?_⟩
  · omega
  · have place := toNat_eq_start_add_distance start address
    simp only [wordCount, frameCount] at place ⊢
    omega

/-- The byte of a patched page at an address. -/
theorem patch_getElem
    (start address : UInt64) (length : Nat) (content : Nat → UInt8)
    (page : Page) :
    (patch start length content (address.toNat / 4096) page).get
        ⟨address.toNat % 4096, Nat.mod_lt _ (by decide)⟩ =
      if distance start address < length then
        content (distance start address)
      else
        page.get ⟨address.toNat % 4096, Nat.mod_lt _ (by decide)⟩ := by
  have joined :
      UInt64.ofNat (address.toNat / 4096 * 4096) +
          UInt64.ofNat (address.toNat % 4096) =
        address := by
    apply UInt64.toNat_inj.mp
    have bound := address.toNat_lt
    simp only [UInt64.toNat_add, UInt64.toNat_ofNat']
    omega
  simp only [get_eq_getElem, patch, Vector.getElem_ofFn, joined,
    Fin.getElem_fin]

/-! ## Bulk operations -/

theorem read_foldl
    {start : UInt64} {length : Nat} {content : Nat → UInt8}
    {step : Memory → Nat → Memory}
    (patches : Patches start length content step)
    (memory : Memory) (address : UInt64) :
    ((pageNumbers start length).foldl step memory).read address =
      if distance start address < length then
        content (distance start address)
      else
        memory.read address := by
  unfold read
  rw [page_foldl patches _ (fun _ => pageNumbers_lt)]
  by_cases touched :
      address.toNat / 4096 ∈ pageNumbers start length
  · rw [if_pos touched]
    exact patch_getElem start address length content _
  · have outside : ¬ distance start address < length := by
      intro inside
      exact touched (page_mem_pageNumbers inside)
    rw [if_neg touched, if_neg outside]

theorem read_overwrite
    (memory : Memory) (start : UInt64) (length : Nat)
    (content : Nat → UInt8) (address : UInt64) :
    (memory.overwrite start length content).read address =
      if distance start address < length then
        content (distance start address)
      else
        memory.read address := by
  apply read_foldl
  intro memory number inside other
  exact page_setPage memory inside _ other

theorem patch_zero_blank (start : UInt64) (length number : Nat) :
    patch start length (fun _ => 0) number Page.blank = Page.blank := by
  apply Vector.ext
  intro index bound
  simp [patch, Page.blank]

theorem read_clear
    (memory : Memory) (start : UInt64) (length : Nat) (address : UInt64) :
    (memory.clear start length).read address =
      if distance start address < length then 0 else memory.read address := by
  refine @read_foldl start length (fun _ => 0) _ ?_ memory address
  intro memory number inside other
  dsimp only
  cases stored : memory.pages[number]? with
  | none =>
      have blank : memory.page number = Page.blank := by
        simp [Memory.page, stored]
      by_cases same : other = number
      · subst same
        simp [blank, patch_zero_blank]
      · simp [same]
  | some page =>
      have present : memory.page number = page := by
        simp [Memory.page, stored]
      simp only [present]
      exact page_setPage memory inside _ other

theorem read_fill
    (memory : Memory) (start : UInt64) (length : Nat) (byte : UInt8)
    (address : UInt64) :
    (memory.fill start length byte).read address =
      if distance start address < length then byte else memory.read address := by
  unfold fill
  split
  · rename_i zero
    rw [read_clear, zero]
  · exact read_overwrite memory start length _ address

theorem read_write
    (memory : Memory) (start : UInt64) (bytes : Array UInt8)
    (address : UInt64) :
    (memory.write start bytes).read address =
      if distance start address < bytes.size then
        bytes.getD (distance start address) 0
      else
        memory.read address :=
  read_overwrite memory start bytes.size _ address

/-! ## Extensionality -/

theorem page_getElem
    (memory : Memory) {number : Nat} (inside : number < frameCount)
    {index : Nat} (bound : index < 4096) :
    (memory.page number)[index] =
      memory.read (UInt64.ofNat (number * 4096 + index)) := by
  have value :
      (UInt64.ofNat (number * 4096 + index)).toNat =
        number * 4096 + index := by
    rw [UInt64.toNat_ofNat']
    simp only [frameCount] at inside
    omega
  have quotient : (number * 4096 + index) / 4096 = number := by omega
  have remainder : (number * 4096 + index) % 4096 = index := by omega
  simp only [read, get_eq_getElem, value, quotient, remainder]

/-- Two memories are equal as soon as every address reads the same. -/
theorem ext_read {left right : Memory}
    (same : ∀ address, left.read address = right.read address) :
    left = right := by
  have samePage : ∀ number, number < frameCount →
      left.page number = right.page number := by
    intro number inside
    apply Vector.ext
    intro index bound
    rw [page_getElem left inside bound, page_getElem right inside bound]
    exact same _
  have stored : ∀ (memory : Memory) number,
      memory.pages[number]? =
        if number < frameCount ∧ memory.page number ≠ Page.blank then
          some (memory.page number)
        else
          none := by
    intro memory number
    cases found : memory.pages[number]? with
    | none => simp [Memory.page, found]
    | some page =>
        have facts := memory.canonical number page found
        have present : memory.page number = page := by
          simp [Memory.page, found]
        rw [present, if_pos facts]
  have samePages : left.pages = right.pages := by
    apply Std.ExtTreeMap.ext_getElem?
    intro number
    rw [stored left, stored right]
    by_cases inside : number < frameCount
    · rw [samePage number inside]
    · rw [if_neg fun facts => inside facts.1,
        if_neg fun facts => inside facts.1]
  cases left
  cases right
  cases samePages
  rfl

/-! ## Stretches -/

theorem readRange_congr
    {left right : Memory} {start : UInt64} {length : Nat}
    (same : ∀ address, distance start address < length →
      left.read address = right.read address) :
    left.readRange start length = right.readRange start length := by
  apply Array.ext
  · simp
  · intro index leftBound rightBound
    simp only [readRange, Array.getElem_ofFn]
    apply same
    have bound : index < length := by simpa using leftBound
    have startBound := start.toNat_lt
    simp only [distance, UInt64.toNat_sub, UInt64.toNat_add,
      UInt64.toNat_ofNat']
    omega

theorem readRange_write
    (memory : Memory) (start : UInt64) (bytes : Array UInt8)
    (small : bytes.size ≤ wordCount) :
    (memory.write start bytes).readRange start bytes.size = bytes := by
  apply Array.ext
  · simp
  · intro index _ bound
    have away : distance start (start + UInt64.ofNat index) = index :=
      distance_add_ofNat start (by omega)
    simp [readRange, read_write, away, bound]

/-- Writing back the bytes of a stretch changes nothing. -/
theorem write_readRange (memory : Memory) (start : UInt64) (length : Nat) :
    memory.write start (memory.readRange start length) = memory := by
  apply ext_read
  intro address
  rw [read_write]
  split
  · simp [readRange, add_ofNat_distance]
  · rfl

end BootMemory.Memory
