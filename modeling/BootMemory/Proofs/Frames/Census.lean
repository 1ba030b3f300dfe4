import BootMemory.Frames.Census
import BootMemory.Proofs.Region

/-!
# The census of a sound map

On a sound map the census meets no overflow and does not depend on the profile:
it is a fold of `Census.tally`, which counts in exact numbers.  The page totals
are the frames of the map counted region by region, and the highest end of
memory is that of a region that is free now or later.
-/

namespace BootMemory

namespace Region

/-- Memory that is free now or later, and not empty. -/
def isPresent (region : Region) : Bool :=
  region.kind.isRam && region.length != 0

/-- Free memory that is not empty. -/
def isOffered (region : Region) : Bool :=
  region.isUsable && region.length != 0

/-- Memory in use at boot. -/
def isOccupied (region : Region) : Bool := region.kind.isOccupiedRam

/-- Memory that is free now or later. -/
def isRam (region : Region) : Bool := region.kind.isRam

theorem isPresent_iff {region : Region} :
    region.isPresent = true ↔
      region.isRam = true ∧ region.length ≠ 0 := by
  simp [isPresent, isRam]

theorem isOffered_iff {region : Region} :
    region.isOffered = true ↔
      region.isUsable = true ∧ region.length ≠ 0 := by
  simp [isOffered]

theorem isRam_of_isOccupied {region : Region}
    (occupied : region.isOccupied = true) : region.isRam = true := by
  unfold isOccupied isRam at *
  cases kind : region.kind <;>
    simp_all [RegionKind.isOccupiedRam, RegionKind.isRam]

theorem isRam_of_isUsable {region : Region}
    (usable : region.isUsable = true) : region.isRam = true := by
  simp only [isUsable, beq_iff_eq] at usable
  simp [isRam, usable, RegionKind.isRam]

/-- Memory that is free now or later is free now or in use at boot. -/
theorem isRam_iff (region : Region) :
    region.isRam = true ↔
      region.isUsable = true ∨ region.isOccupied = true := by
  unfold isRam isUsable isOccupied
  cases region.kind <;> decide

theorem not_isOccupied_of_isUsable {region : Region}
    (usable : region.isUsable = true) : region.isOccupied = false := by
  simp only [isUsable, beq_iff_eq] at usable
  simp [isOccupied, usable, RegionKind.isOccupiedRam]

/-- A region that holds a frame is not empty. -/
theorem HoldsFrame.length_ne_zero
    {region : Region} {frame : Nat} (holds : region.HoldsFrame frame) :
    region.length ≠ 0 := by
  intro empty
  simp only [HoldsFrame, top, empty, UInt64.toNat_zero, frameSize] at holds
  omega

theorem card_frames_of_length_zero {region : Region}
    (empty : region.length = 0) : region.frames.card = 0 := by
  rw [Finset.card_eq_zero, Finset.eq_empty_iff_forall_notMem]
  intro frame member
  exact (mem_frames.mp member).length_ne_zero empty

/-- The frames of memory are those free now and those in use at boot. -/
theorem pagesWhere_isRam (map : List Region) :
    pagesWhere isRam map =
      pagesWhere isUsable map + pagesWhere isOccupied map := by
  induction map with
  | nil => rfl
  | cons region map inductionHypothesis =>
      have classes := isRam_iff region
      cases usable : region.isUsable with
      | true =>
          have free := not_isOccupied_of_isUsable usable
          have ram := isRam_of_isUsable usable
          simp only [pagesWhere, usable, free, ram, inductionHypothesis]
          simp [Nat.add_assoc]
      | false =>
          have same : region.isRam = region.isOccupied := by
            rw [Bool.eq_iff_iff, classes]
            simp [usable]
          simp only [pagesWhere, usable, same, inductionHypothesis]
          simp only [Bool.false_eq_true, if_false, Nat.zero_add]
          omega

end Region

namespace Census

/-- Take the frames of a region into account in exact numbers. -/
def tallyPages (census : Census) (region : Region) : Census :=
  { census with
    highestRam :=
      if region.isPresent then
        max census.highestRam region.stop
      else
        census.highestRam
    presentPages :=
      census.presentPages + if region.isRam then region.frames.card else 0
    occupiedPages :=
      census.occupiedPages +
        if region.isOccupied then region.frames.card else 0 }

/-- Take a region into account in exact numbers. -/
def tally (census : Census) (region : Region) : Census :=
  ((census.reach region).tallyPages region).bound region

theorem countPages_eq_tallyPages
    (profile : Profile) (census : Census) {region : Region}
    (low : region.top ≤ physicalLimit)
    (ordered : census.occupiedPages ≤ census.presentPages)
    (small : (census.tallyPages region).presentPages < wordCount) :
    census.countPages profile region = .ok (census.tallyPages region) := by
  cases present : region.isPresent with
  | false =>
      have pages : (if region.isRam then region.frames.card else 0) = 0 := by
        cases ram : region.isRam with
        | false => simp
        | true =>
            unfold Region.isRam at ram
            have empty : region.length = 0 := by
              simpa [Region.isPresent, ram] using present
            simp [Region.card_frames_of_length_zero empty]
      have occupied :
          (if region.isOccupied then region.frames.card else 0) = 0 := by
        cases held : region.isOccupied with
        | false => simp
        | true =>
            simpa [Region.isRam_of_isOccupied held] using pages
      unfold Region.isPresent at present
      simp [countPages, tallyPages, present, pages, occupied,
        Region.isPresent, pure, Except.pure]
  | true =>
      unfold Region.isPresent at present
      have ram : region.isRam = true := by
        simp only [Bool.and_eq_true] at present
        exact present.1
      have total :
          profile.add census.presentPages region.frames.card =
            .ok (census.presentPages + region.frames.card) := by
        apply profile.add_of_lt
        simpa [tallyPages, ram] using small
      have occupied :
          profile.add census.occupiedPages region.frames.card =
            .ok (census.occupiedPages + region.frames.card) := by
        apply profile.add_of_lt
        have bound :
            census.presentPages + region.frames.card < wordCount := by
          simpa [tallyPages, ram] using small
        omega
      have counted := region.pageCount_of_le profile low
      simp only [countPages, tallyPages, present, counted, total, ram,
        Region.isPresent, if_true, bind, Except.bind, pure, Except.pure]
      cases held : region.isOccupied with
      | false =>
          unfold Region.isOccupied at held
          simp [held]
      | true =>
          unfold Region.isOccupied at held
          simp [held, occupied]

@[simp]
theorem presentPages_tally (census : Census) (region : Region) :
    (census.tally region).presentPages =
      census.presentPages +
        if region.isRam then region.frames.card else 0 := by
  unfold tally bound
  split <;> rfl

@[simp]
theorem occupiedPages_tally (census : Census) (region : Region) :
    (census.tally region).occupiedPages =
      census.occupiedPages +
        if region.isOccupied then region.frames.card else 0 := by
  unfold tally bound
  split <;> rfl

@[simp]
theorem highestRam_tally (census : Census) (region : Region) :
    (census.tally region).highestRam =
      if region.isPresent then
        max census.highestRam region.stop
      else
        census.highestRam := by
  unfold tally bound
  split <;> rfl

@[simp]
theorem highestPhysical_tally (census : Census) (region : Region) :
    (census.tally region).highestPhysical =
      max census.highestPhysical region.stop := by
  unfold tally bound
  split <;> rfl

@[simp]
theorem highestUsable_tally (census : Census) (region : Region) :
    (census.tally region).highestUsable =
      if region.isOffered then
        max census.highestUsable region.stop
      else
        census.highestUsable := by
  unfold tally bound Region.isOffered
  split <;> rfl

/-- The lower of a bound and the base of a region, if there is a bound. -/
def lower (lowest : Option Nat) (region : Region) : Option Nat :=
  some (lowest.elim region.base.toNat (min · region.base.toNat))

@[simp]
theorem lowestUsable_tally (census : Census) (region : Region) :
    (census.tally region).lowestUsable =
      if region.isOffered then
        lower census.lowestUsable region
      else
        census.lowestUsable := by
  have kept :
      ((census.reach region).tallyPages region).lowestUsable =
        census.lowestUsable := rfl
  unfold tally bound Region.isOffered lower
  split
  · rw [kept]
    cases census.lowestUsable <;> rfl
  · rfl

theorem lowestUsable_tally_isSome (census : Census) (region : Region) :
    (census.tally region).lowestUsable.isSome =
      (region.isOffered || census.lowestUsable.isSome) := by
  rw [lowestUsable_tally]
  cases region.isOffered with
  | false => rfl
  | true => rfl

theorem add_eq_tally
    (profile : Profile) (census : Census) {region : Region}
    (low : region.top ≤ physicalLimit)
    (ordered : census.occupiedPages ≤ census.presentPages)
    (small : (census.tally region).presentPages < wordCount) :
    census.add profile region = .ok (census.tally region) := by
  rw [presentPages_tally] at small
  have counted :=
    countPages_eq_tallyPages profile (census.reach region) low ordered small
  simp only [add, counted, bind, Except.bind, pure, Except.pure, tally]

/-! ## Whole maps -/

/-- The totals over a memory map in exact numbers. -/
def ofMap (map : List Region) : Census := map.foldl tally empty

theorem presentPages_foldl (map : List Region) (census : Census) :
    (map.foldl tally census).presentPages =
      census.presentPages + Region.pagesWhere Region.isRam map := by
  induction map generalizing census with
  | nil => rfl
  | cons region map inductionHypothesis =>
      rw [List.foldl_cons, inductionHypothesis, presentPages_tally,
        Region.pagesWhere, Nat.add_assoc]

theorem occupiedPages_foldl (map : List Region) (census : Census) :
    (map.foldl tally census).occupiedPages =
      census.occupiedPages + Region.pagesWhere Region.isOccupied map := by
  induction map generalizing census with
  | nil => rfl
  | cons region map inductionHypothesis =>
      rw [List.foldl_cons, inductionHypothesis, occupiedPages_tally,
        Region.pagesWhere, Nat.add_assoc]

theorem foldlM_add_eq
    (profile : Profile) {map : List Region}
    (low : ∀ region ∈ map, region.top ≤ physicalLimit) (census : Census)
    (ordered : census.occupiedPages ≤ census.presentPages)
    (small : (map.foldl tally census).presentPages < wordCount) :
    map.foldlM (add profile) census = .ok (map.foldl tally census) := by
  induction map generalizing census with
  | nil => rfl
  | cons region map inductionHypothesis =>
      have headLow : region.top ≤ physicalLimit := low region (by simp)
      have tailLow : ∀ later ∈ map, later.top ≤ physicalLimit := by
        intro later member
        exact low later (List.mem_cons_of_mem _ member)
      have stillOrdered :
          (census.tally region).occupiedPages ≤
            (census.tally region).presentPages := by
        rw [occupiedPages_tally, presentPages_tally]
        cases held : region.isOccupied with
        | false => simp only [Bool.false_eq_true, if_false]; omega
        | true =>
            simp only [Region.isRam_of_isOccupied held, if_true]
            omega
      have headSmall : (census.tally region).presentPages < wordCount := by
        rw [List.foldl_cons, presentPages_foldl] at small
        omega
      have added := add_eq_tally profile census headLow ordered headSmall
      rw [List.foldlM_cons, added]
      exact inductionHypothesis tailLow _ stillOrdered small

/-- The census of a sound map, in either profile. -/
theorem take_of_sound
    (profile : Profile) {map : List Region} (sound : SoundMap map) :
    take profile map = .ok (ofMap map) := by
  apply foldlM_add_eq profile sound.low empty (Nat.le_refl _)
  have pages := sound.pagesWhere_le Region.isRam
  rw [presentPages_foldl]
  simp only [empty, wordCount]
  omega

@[simp]
theorem presentPages_ofMap (map : List Region) :
    (ofMap map).presentPages = Region.pagesWhere Region.isRam map := by
  simp [ofMap, presentPages_foldl, empty]

@[simp]
theorem occupiedPages_ofMap (map : List Region) :
    (ofMap map).occupiedPages =
      Region.pagesWhere Region.isOccupied map := by
  simp [ofMap, occupiedPages_foldl, empty]

theorem le_highestRam_foldl (map : List Region) (census : Census) :
    census.highestRam ≤ (map.foldl tally census).highestRam ∧
      ∀ region ∈ map, region.isPresent = true →
        region.stop ≤ (map.foldl tally census).highestRam := by
  induction map generalizing census with
  | nil => simp
  | cons head map inductionHypothesis =>
      have rest := inductionHypothesis (census.tally head)
      rw [highestRam_tally] at rest
      constructor
      · refine Nat.le_trans ?_ rest.1
        split
        · exact Nat.le_max_left _ _
        · exact Nat.le_refl _
      · intro region member present
        rcases List.mem_cons.mp member with rfl | later
        · rw [if_pos present] at rest
          exact Nat.le_trans (Nat.le_max_right _ _) rest.1
        · exact rest.2 region later present

theorem stop_le_highestRam
    {map : List Region} {region : Region} (member : region ∈ map)
    (present : region.isPresent = true) :
    region.stop ≤ (ofMap map).highestRam :=
  (le_highestRam_foldl map empty).2 region member present

/-- A fold over a map ends where it started or at the end of a region. -/
theorem highestRam_foldl_cases (map : List Region) (census : Census) :
    (map.foldl tally census).highestRam = census.highestRam ∨
      ∃ region ∈ map, region.isPresent = true ∧
        region.stop = (map.foldl tally census).highestRam := by
  induction map generalizing census with
  | nil => exact .inl rfl
  | cons head map inductionHypothesis =>
      rw [List.foldl_cons]
      rcases inductionHypothesis (census.tally head) with
        kept | ⟨region, member, present, stop⟩
      · rw [kept, highestRam_tally]
        split
        · rename_i present
          rcases Nat.le_total head.stop census.highestRam with below | above
          · exact .inl (Nat.max_eq_left below)
          · refine .inr ⟨head, List.mem_cons_self, present, ?_⟩
            exact (Nat.max_eq_right above).symm
        · exact .inl rfl
      · exact .inr ⟨region, List.mem_cons_of_mem _ member, present, stop⟩

/-- The highest end of memory is bounded by what bounds every region of it. -/
theorem highestRam_le
    {map : List Region} {bound : Nat}
    (bounded : ∀ region ∈ map, region.isPresent = true →
      region.stop ≤ bound) :
    (ofMap map).highestRam ≤ bound := by
  rcases highestRam_foldl_cases map empty with
    nothing | ⟨region, member, present, stop⟩
  · exact Nat.le_trans (Nat.le_of_eq nothing) (Nat.zero_le _)
  · exact Nat.le_trans (Nat.le_of_eq stop.symm) (bounded region member present)

/-- The census finds usable memory exactly if there is some. -/
theorem lowestUsable_ofMap_isSome (map : List Region) :
    (ofMap map).lowestUsable.isSome = map.any Region.isOffered := by
  have general : ∀ census : Census,
      (map.foldl tally census).lowestUsable.isSome =
        (map.any Region.isOffered || census.lowestUsable.isSome) := by
    induction map with
    | nil =>
        intro census
        rfl
    | cons head map inductionHypothesis =>
        intro census
        rw [List.foldl_cons, inductionHypothesis,
          lowestUsable_tally_isSome, List.any_cons]
        cases head.isOffered <;> simp
  rw [ofMap, general]
  simp [empty]

end Census

end BootMemory
