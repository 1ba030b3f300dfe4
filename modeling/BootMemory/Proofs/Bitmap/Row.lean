import BootMemory.Proofs.Bitmap
import BootMemory.Proofs.Frames.Profiles

/-!
# Bitmaps refine arrays of truth values

`Bitmap.row` reads a bitmap as the array of its bits, and `Call.onRow` says what
a call does to such an array: reads outside it yield `false`, writes outside it
do nothing, the `try` forms say that they are refused, and a range changes the
entries that it covers.  `Binding.run_refines_row` is the refinement: a run of
calls gives the answers of the array and ends in the array's final entries.  In
the release profile there is always such a run; in debug there is one unless an
assertion stops it.

The array does not speak of the buffer's bits behind the last one of the bitmap.
`Kept` does: as long as no other buffer is offered they are overwritten by
`fill`, all of them, and by nothing else.
-/

namespace BootMemory.Bitmap

/-! ## Rows -/

/-- The first bits of a buffer as an array of truth values. -/
def rowOf (bytes : Array UInt8) (bits : Nat) : Array Bool :=
  Array.ofFn fun index : Fin bits => bufferBit bytes index

/-- The bits of a bitmap as an array of truth values. -/
def row (bitmap : Bitmap) : Array Bool :=
  rowOf bitmap.bytes bitmap.bits

/-- Write the entries of a row that a range covers. -/
def putEntries (row : Array Bool) (value : Bool) (start stop : Nat) :
    Array Bool :=
  row.mapIdx fun index entry =>
    if start ≤ index ∧ index < stop then value else entry

@[simp]
theorem size_row (bitmap : Bitmap) : bitmap.row.size = bitmap.bits := by
  simp [row, rowOf]

@[simp]
theorem getElem_row
    (bitmap : Bitmap) {index : Nat} (inside : index < bitmap.row.size) :
    bitmap.row[index] = bufferBit bitmap.bytes index := by
  simp [row, rowOf]

/-- Reading a bit is reading the row, with `false` outside. -/
theorem bit_eq_getD_row (bitmap : Bitmap) (index : Nat) :
    bitmap.bit index = bitmap.row.getD index false := by
  by_cases inside : index < bitmap.bits
  · simp [bit_eq, Array.getD, inside]
  · simp [bit_eq, Array.getD, inside]

theorem getElem?_row_eq_some_true (bitmap : Bitmap) (index : Nat) :
    bitmap.row[index]? = some true ↔ bitmap.bit index = true := by
  by_cases inside : index < bitmap.bits
  · simp [bit_eq, inside]
  · simp [bit_eq, inside]

theorem row_put (bitmap : Bitmap) (index : Nat) (value : Bool) :
    (bitmap.put index value).row = bitmap.row.setIfInBounds index value := by
  apply Array.ext
  · simp
  · intro other written inside
    have below : other < bitmap.bits := by simpa using inside
    rw [getElem_row, bufferBit_put, Array.getElem_setIfInBounds, getElem_row]
    · by_cases same : index = other
      · rw [if_pos ⟨same.symm, by omega⟩, if_pos same]
      · rw [if_neg fun both => same both.1.symm, if_neg same]
    · exact Array.size_setIfInBounds ▸ inside

theorem row_putRange
    (bitmap : Bitmap) (value : Bool) {start count stop : Nat}
    (covered : ∀ index, index < bitmap.bits →
      (start ≤ index ∧ index < start + count ↔
        start ≤ index ∧ index < stop)) :
    (bitmap.putRange value start count).row =
      putEntries bitmap.row value start stop := by
  apply Array.ext
  · simp [putEntries]
  · intro index written inside
    have below : index < bitmap.bits := by simpa [putEntries] using inside
    have range :
        (start ≤ index ∧ index < start + count ∧ index < bitmap.bits) ↔
          start ≤ index ∧ index < stop := by
      rw [← covered index below]
      omega
    rw [getElem_row, bufferBit_putRange, if_congr range rfl rfl]
    simp [putEntries]

theorem row_fill (bitmap : Bitmap) (value : Bool) :
    (bitmap.fill value).row = Array.replicate bitmap.row.size value := by
  apply Array.ext
  · simp
  · intro index filled inside
    have below : index < bitmap.bits := by simpa using inside
    have size := bitmap.fits
    have stored : index < 8 * bitmap.bytes.size := by omega
    rw [getElem_row, bufferBit_fill, Array.getElem_replicate,
      decide_eq_true stored, Bool.true_and]

/-! ## The buffer behind a bitmap -/

/-- The lengths are kept, and the bits behind the last one are overwritten. -/
structure Kept
    (overwrite : Bool → Bool) (bitmap later : Bitmap) : Prop where
  bits_eq : later.bits = bitmap.bits
  size_eq : later.bytes.size = bitmap.bytes.size
  spare_eq :
    ∀ index, bitmap.bits ≤ index → index < 8 * bitmap.bytes.size →
      bufferBit later.bytes index = overwrite (bufferBit bitmap.bytes index)

namespace Kept

theorem refl (bitmap : Bitmap) : Kept id bitmap bitmap :=
  ⟨rfl, rfl, fun _ _ _ => rfl⟩

theorem trans
    {first second : Bool → Bool} {bitmap middle later : Bitmap}
    (early : Kept first bitmap middle) (late : Kept second middle later) :
    Kept (second ∘ first) bitmap later where
  bits_eq := late.bits_eq.trans early.bits_eq
  size_eq := late.size_eq.trans early.size_eq
  spare_eq := by
    intro index behind stored
    have behindMiddle : middle.bits ≤ index := by
      rw [early.bits_eq]
      exact behind
    have storedMiddle : index < 8 * middle.bytes.size := by
      rw [early.size_eq]
      exact stored
    rw [late.spare_eq index behindMiddle storedMiddle,
      early.spare_eq index behind stored]
    rfl

theorem put (bitmap : Bitmap) (index : Nat) (value : Bool) :
    Kept id bitmap (bitmap.put index value) where
  bits_eq := bits_put bitmap index value
  size_eq := size_bytes_put bitmap index value
  spare_eq := by
    intro other behind _
    have apart : ¬ (other = index ∧ index < bitmap.bits) := by omega
    rw [bufferBit_put, if_neg apart, id]

theorem putRange (bitmap : Bitmap) (value : Bool) (start count : Nat) :
    Kept id bitmap (bitmap.putRange value start count) where
  bits_eq := bits_putRange bitmap value start count
  size_eq := size_bytes_putRange bitmap value start count
  spare_eq := by
    intro index behind _
    have apart :
        ¬ (start ≤ index ∧ index < start + count ∧ index < bitmap.bits) := by
      omega
    rw [bufferBit_putRange, if_neg apart, id]

theorem fill (bitmap : Bitmap) (value : Bool) :
    Kept (fun _ => value) bitmap (bitmap.fill value) where
  bits_eq := bits_fill bitmap value
  size_eq := size_bytes_fill bitmap value
  spare_eq := by
    intro index _ stored
    rw [bufferBit_fill, decide_eq_true stored, Bool.true_and]

end Kept

namespace Binding

/-! ## Calls on a row -/

/-- The call works on the buffer in use. -/
def Call.InPlace : Call → Prop
  | .rebind _ _ => False
  | _ => True

/-- What a call makes of a bit behind the last one. -/
def Call.overwrite : Call → Bool → Bool
  | .fill value, _ => value
  | _, old => old

/-- Write an entry of a row, refusing an index outside. -/
def tryPutEntry (row : Array Bool) (index : Nat) (value : Bool) :
    Answer × Array Bool :=
  if index < row.size then
    (.done, row.set! index value)
  else
    (.refused (.outOfRange index row.size), row)

/-- The answer of a call on a row, and the row that it leaves. -/
def Call.onRow : Call → Array Bool → Answer × Array Bool
  | .get index, row => (.bit (row.getD index false), row)
  | .set index, row => (.done, row.setIfInBounds index true)
  | .clear index, row => (.done, row.setIfInBounds index false)
  | .tryGet index, row =>
      match row[index]? with
      | some entry => (.bit entry, row)
      | none => (.refused (.outOfRange index row.size), row)
  | .trySet index, row => tryPutEntry row index true
  | .tryClear index, row => tryPutEntry row index false
  | .setRange start stop, row => (.done, putEntries row true start stop)
  | .clearRange start stop, row => (.done, putEntries row false start stop)
  | .allSet start stop, row =>
      (.bit (decide (∀ index, start ≤ index → index < stop →
        row[index]? = some true)), row)
  | .fill value, row => (.done, Array.replicate row.size value)
  | .rebind bytes bits, row =>
      if bits ≤ 8 * bytes.size then
        (.done, rowOf bytes bits)
      else
        (.refused (.bufferTooSmall bytes.size bits), row)

/-! ## One call -/

/-- A call does to a bitmap what it does to its row. -/
structure Steps (call : Call) (bitmap later : Bitmap) : Prop where
  row_eq : later.row = (call.onRow bitmap.row).2
  kept : call.InPlace → Kept call.overwrite bitmap later

/-- The release profile performs a call and answers as the row does. -/
def Refines (call : Call) (binding : Binding) : Prop :=
  ∃ later,
    perform .release call binding =
      .ok (call.onRow binding.current.row).1 later ∧
    Steps call binding.current later.current

variable (binding : Binding)

theorem onCurrent_write (value : Bool) (index : Nat) :
    onCurrent (write .release value index) binding =
      .ok () (binding.withCurrent (binding.current.put index value)) :=
  Action.focus_of_ok (write_of_admits value (.inl rfl))

theorem onCurrent_writeRange (value : Bool) (start stop : Nat) :
    onCurrent (writeRange .release value start stop) binding =
      .ok () (binding.withCurrent
        (binding.current.putRange value start
          (binding.current.visited start stop))) :=
  Action.focus_of_ok (writeFrom_of_admits value (.inl rfl))

theorem row_putRange_visited
    (bitmap : Bitmap) (value : Bool) (start stop : Nat) :
    (bitmap.putRange value start (bitmap.visited start stop)).row =
      putEntries bitmap.row value start stop := by
  apply row_putRange
  intro index inside
  unfold visited
  omega

theorem attempt_eq (change : Bitmap → Except BitmapError Bitmap) :
    attempt change binding =
      match change binding.current with
      | .ok bitmap => .ok .done (binding.withCurrent bitmap)
      | .error refusal => .ok (.refused refusal) binding := by
  rw [attempt, Action.bind_getThe]
  cases change binding.current <;> rfl

theorem perform_tryGet (profile : Profile) (index : Nat) :
    perform profile (.tryGet index) binding =
      match binding.current.tryGet index with
      | .ok value => .ok (.bit value) binding
      | .error refusal => .ok (.refused refusal) binding := by
  rw [perform, Action.bind_getThe]
  cases binding.current.tryGet index <;> rfl

theorem perform_rebind
    (profile : Profile) (bytes : Array UInt8) (bits : Nat) :
    perform profile (.rebind bytes bits) binding =
      match ofBytes bytes bits with
      | .ok bitmap => .ok .done ⟨binding.buffers, bitmap, []⟩
      | .error refusal =>
          .ok (.refused refusal)
            { binding with refused := binding.refused ++ [bytes] } := by
  rw [perform, Action.bind_getThe, rebind]
  cases ofBytes bytes bits <;> rfl

/-- A `try` form that writes does to the bitmap what it does to the row. -/
theorem attempt_put (index : Nat) (value : Bool) :
    ∃ later,
      attempt (fun bitmap => bitmap.tryPut index value) binding =
        .ok (tryPutEntry binding.current.row index value).1 later ∧
      later.current.row =
        (tryPutEntry binding.current.row index value).2 ∧
      Kept id binding.current later.current := by
  rw [attempt_eq, tryPut, tryPutEntry, size_row]
  by_cases inside : index < binding.current.bits
  · rw [if_pos inside, if_pos inside]
    exact ⟨_, rfl, row_put .., .put ..⟩
  · rw [if_neg inside, if_neg inside]
    exact ⟨binding, rfl, rfl, .refl _⟩

theorem allSet_release (bitmap : Bitmap) (start stop : Nat) :
    bitmap.allSet .release start stop =
      .ok (decide (∀ index, start ≤ index → index < stop →
        bitmap.row[index]? = some true)) := by
  rw [allSet, allSetFrom_of_admits (.inl rfl)]
  simp only [getElem?_row_eq_some_true]
  congr 2
  ext
  constructor
  · intro held index lower upper
    exact held index lower (by omega)
  · intro held index lower upper
    exact held index lower (by omega)

theorem rebind_refines (bytes : Array UInt8) (bits : Nat) :
    Refines (.rebind bytes bits) binding := by
  rw [Refines, perform_rebind, ofBytes]
  by_cases enough : bytesFor bits ≤ bytes.size
  · have accepted := bytesFor_le_iff.mp enough
    have told :
        Call.onRow (.rebind bytes bits) binding.current.row =
          (.done, rowOf bytes bits) := if_pos accepted
    rw [dif_pos enough, told]
    refine ⟨_, rfl, ?_, fun inPlace => nomatch inPlace⟩
    rw [told]
    rfl
  · have refused := mt bytesFor_le_iff.mpr enough
    have told :
        Call.onRow (.rebind bytes bits) binding.current.row =
          (.refused (.bufferTooSmall bytes.size bits),
            binding.current.row) := if_neg refused
    rw [dif_neg enough, told]
    refine ⟨_, rfl, ?_, fun inPlace => nomatch inPlace⟩
    rw [told]

theorem perform_release (call : Call) : Refines call binding := by
  cases call with
  | get index =>
      have ran :
          onCurrent (read .release index) binding =
            .ok (binding.current.bit index) binding :=
        Action.focus_of_ok (read_of_admits (.inl rfl))
      refine ⟨binding, ?_, rfl, fun _ => .refl _⟩
      rw [perform, Action.bind_of_ok ran, bit_eq_getD_row]
      rfl
  | set index =>
      exact
        ⟨_, Action.bind_of_ok (onCurrent_write binding true index),
          row_put .., fun _ => .put ..⟩
  | clear index =>
      exact
        ⟨_, Action.bind_of_ok (onCurrent_write binding false index),
          row_put .., fun _ => .put ..⟩
  | setRange start stop =>
      exact
        ⟨_, Action.bind_of_ok (onCurrent_writeRange binding true start stop),
          row_putRange_visited .., fun _ => .putRange ..⟩
  | clearRange start stop =>
      exact
        ⟨_, Action.bind_of_ok (onCurrent_writeRange binding false start stop),
          row_putRange_visited .., fun _ => .putRange ..⟩
  | tryGet index =>
      refine ⟨binding, ?_, ?_, fun _ => .refl _⟩
      · rw [perform_tryGet, tryGet, Call.onRow]
        by_cases inside : index < binding.current.bits
        · simp [inside, bit_eq]
        · simp [inside]
      · rw [Call.onRow]
        split <;> rfl
  | trySet index =>
      rcases attempt_put binding index true with ⟨later, ran, entries, kept⟩
      exact ⟨later, ran, entries, fun _ => kept⟩
  | tryClear index =>
      rcases attempt_put binding index false with ⟨later, ran, entries, kept⟩
      exact ⟨later, ran, entries, fun _ => kept⟩
  | allSet start stop =>
      refine ⟨binding, ?_, rfl, fun _ => .refl _⟩
      exact Action.bind_lift_of_ok (allSet_release ..)
  | fill value =>
      exact ⟨_, rfl, row_fill .., fun _ => .fill ..⟩
  | rebind bytes bits => exact rebind_refines binding bytes bits

/-! ## Runs -/

/-- What calls make of a bit behind the last one, one after the other. -/
def overwriteAll (calls : List Call) (old : Bool) : Bool :=
  calls.foldl (fun bit call => call.overwrite bit) old

/-- A run of calls gives the row's answers and ends in the row's entries. -/
structure Presents
    (calls : List Call) (bitmap : Bitmap) (answers : List Answer)
    (later : Bitmap) : Prop where
  answers_eq : answers = (answerAll Call.onRow calls bitmap.row).1
  row_eq : later.row = (answerAll Call.onRow calls bitmap.row).2
  kept :
    (∀ call ∈ calls, call.InPlace) → Kept (overwriteAll calls) bitmap later

theorem Presents.cons
    {call : Call} {rest : List Call} {bitmap middle later : Bitmap}
    {answers : List Answer}
    (step : Steps call bitmap middle)
    (run : Presents rest middle answers later) :
    Presents (call :: rest) bitmap
      ((call.onRow bitmap.row).1 :: answers) later where
  answers_eq := by
    rw [run.answers_eq, step.row_eq]
    rfl
  row_eq := by
    rw [run.row_eq, step.row_eq]
    rfl
  kept := by
    intro inPlace
    have first : call.InPlace := inPlace call List.mem_cons_self
    have others : ∀ later ∈ rest, later.InPlace := fun later member =>
      inPlace later (List.mem_cons_of_mem call member)
    exact (step.kept first).trans (run.kept others)

/-- In release every run finishes. -/
theorem performAll_release (calls : List Call) :
    ∃ answers later,
      performAll .release calls binding = .ok answers later ∧
      Presents calls binding.current answers later.current := by
  induction calls generalizing binding with
  | nil => exact ⟨[], binding, rfl, rfl, rfl, fun _ => .refl _⟩
  | cons call rest inductionHypothesis =>
      rcases perform_release binding call with ⟨middle, first, step⟩
      rcases inductionHypothesis middle with ⟨answers, later, others, run⟩
      refine ⟨_, later, ?_, .cons step run⟩
      rw [performAll, List.mapM_cons, Action.bind_of_ok first]
      exact Action.bind_of_ok others

/-- Whatever run finishes is the run of the release profile. -/
theorem performAll_presents
    {profile : Profile} {calls : List Call} {answers : List Answer}
    {later : Binding}
    (ran : performAll profile calls binding = .ok answers later) :
    Presents calls binding.current answers later.current := by
  have unchecked : performAll .release calls binding = .ok answers later := by
    cases profile with
    | release => exact ran
    | debug =>
        rcases performAll_agrees calls binding binding answers later rfl ran
          with ⟨ending, same, equal⟩
        rw [same, equal]
  rcases performAll_release binding calls with
    ⟨expected, ending, finished, presents⟩
  rw [unchecked] at finished
  cases finished
  exact presents

/--
A bitmap is bound to its buffer without copying and refines the array of its
bits: a run that finishes presents that array, and in release every run does.
-/
theorem run_refines_row
    {bytes : Array UInt8} {bits : Nat} {binding : Binding}
    (accepted : start bytes bits = .ok binding) (calls : List Call) :
    binding.current.bytes = bytes ∧ binding.current.bits = bits ∧
    (∀ profile answers later,
      performAll profile calls binding = .ok answers later →
        Presents calls binding.current answers later.current) ∧
    ∃ answers later,
      performAll .release calls binding = .ok answers later := by
  have bound : binding.current.bytes = bytes ∧ binding.current.bits = bits := by
    rw [start, ofBytes] at accepted
    split at accepted
    · cases accepted
      exact ⟨rfl, rfl⟩
    · cases accepted
  rcases performAll_release binding calls with ⟨answers, later, ran, -⟩
  refine ⟨bound.1, bound.2, ?_, answers, later, ran⟩
  intro profile answers later ran
  exact performAll_presents binding ran

end Binding

end BootMemory.Bitmap

namespace BootMemory.Sample

open Bitmap.Binding

/-- A range reaches past the last bit, which only release lets happen. -/
def overreachingCalls : List Call :=
  [.fill false, .setRange 3 20, .allSet 3 12, .allSet 3 13, .clear 4, .get 30,
    .tryGet 12]

/-- The sample that debug finishes, and the one that only release does. -/
theorem range_runs_refine_row :
    (∃ answers later,
      performAll .debug rangeCalls rangeBinding = .ok answers later ∧
      Presents rangeCalls rangeBinding.current answers later.current) ∧
    ∃ later,
      performAll .release overreachingCalls rangeBinding =
        .ok [.done, .done, .bit true, .bit false, .done, .bit false,
          .refused (.outOfRange 12 12)] later ∧
      later.current.bytes = #[232, 15] := by
  have accepted : start #[255, 255] 12 = .ok rangeBinding := rfl
  have checked := (run_refines_row accepted rangeCalls).2.2.1
  exact ⟨⟨_, _, rfl, checked .debug _ _ rfl⟩, _, rfl, rfl⟩

end BootMemory.Sample
