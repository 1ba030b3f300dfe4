import BootMemory.Bitmap.Range

/-!
# Frame tables

A frame table keeps account of which frames are in use: a bitmap with one bit a
frame, set while the frame is unavailable, together with the number of used
pages, the end of memory and a cursor.

Frames are found by a next-fit search.  The cursor stands behind the run that
was found last.  A search looks for free frames in a row from the cursor up to
the end of memory, and if there are too few it looks once more from frame zero
up to where the cursor stood.  Giving back frames below the cursor moves it
there, so that they are the next candidates.
-/

namespace BootMemory

/-- The account of which frames are in use. -/
structure FrameTable where
  /-- One bit a frame, set while the frame is unavailable. -/
  bitmap : Bitmap
  /-- One past the highest frame that is backed by memory. -/
  frameLimit : Nat
  /-- Where the next search starts. -/
  cursor : Nat
  usedPages : Nat

/-- The outcome of a search for free frames. -/
structure RunSearch where
  /-- The first frame of the run, if there is one. -/
  first : Option Nat
  /-- Whether the search went back to frame zero. -/
  wrapped : Bool

namespace FrameTable

/-- One past the highest frame that a search may find. -/
def scanLimit (table : FrameTable) : Nat :=
  min table.frameLimit table.bitmap.bits

/--
Look for `count` clear bits in a row among the `remaining` ones from `cursor`
on, where `run` clear bits lie directly before the cursor.  The outcome is the
first bit of the run, if there is one, and the index where the search stopped.
-/
def search (profile : Profile) (bitmap : Bitmap) (count : Nat) :
    (cursor remaining run : Nat) → Except Fault (Option Nat × Nat)
  | cursor, 0, _ => return (none, cursor)
  | cursor, remaining + 1, run => do
      let next ← profile.add cursor 1
      if ← bitmap.get profile cursor then
        search profile bitmap count next remaining 0
      else
        let run ← profile.add run 1
        if run = count then
          let first ← profile.sub next count
          return (some first, next)
        else
          search profile bitmap count next remaining run

/-- Perform an action on the bitmap of a table. -/
def onBitmap {Value : Type} (action : Action Bitmap Value) :
    Action FrameTable Value :=
  Action.focus FrameTable.bitmap
    (fun bitmap table => { table with bitmap }) action

/--
Search from the cursor up to a limit and mark the run that is found as used.
The cursor moves to where the search stopped.
-/
def scan (profile : Profile) (count limit : Nat) :
    Action FrameTable (Option Nat) := do
  let table ← get
  let (found, cursor) ←
    search profile table.bitmap count table.cursor (limit - table.cursor) 0
  set { table with cursor }
  if let some first := found then
    onBitmap (Bitmap.setRange profile first cursor)
  return found

/--
Find `count` free frames in a row and mark them as used.  If there are none,
bitmap and cursor are left as they were.
-/
def claimRun (profile : Profile) (count : Nat) : Action FrameTable RunSearch := do
  let table ← get
  let origin := table.cursor
  if let some first ← scan profile count table.scanLimit then
    return ⟨some first, false⟩
  modify fun table => { table with cursor := 0 }
  if let some first ← scan profile count origin then
    return ⟨some first, true⟩
  modify fun table => { table with cursor := origin }
  return ⟨none, true⟩

/-- One past the last of `count` frames from `first` on, as a 64-bit number. -/
def runStop (first count : Nat) : Nat := min (first + count) (wordCount - 1)

/--
Demand that `count` frames from `first` on can be given back: they lie inside
the bitmap, frame zero is not among them, and all of them are in use.
-/
def assertReleasable (profile : Profile) (table : FrameTable)
    (first count : Nat) : Except Fault Unit := do
  let stop := runStop first count
  let length := table.bitmap.bits
  profile.assert (stop ≤ length) (.releaseBeyondBitmap first stop length)
  profile.assert (first ≠ 0) .releaseFrameZero
  match profile with
  | .debug =>
      let held ← table.bitmap.allSet profile first stop
      profile.assert held (.releaseUnallocated first stop)
  | .release => return ()

/--
Give back `count` frames from `first` on.  Only frames that are in use count
towards the used pages, and frame zero stays reserved.
-/
def release (profile : Profile) (first count : Nat) : Action FrameTable Unit := do
  let table ← get
  table.assertReleasable profile first count
  let stop := min (runStop first count) table.bitmap.bits
  let start := max first 1
  let released ← onBitmap (Bitmap.releaseFrom profile start (stop - start) 0)
  modify fun table =>
    { table with
      usedPages := table.usedPages - released
      cursor := if first < table.cursor then first else table.cursor }

end FrameTable

end BootMemory
