import Handset.Proofs.Pictures

/-! The storage of an image: two sides and a run of pixels, which only the operations keep in step.
The place of a pixel is computed in 32 bits, and rows are copied as pieces of the run; a place or a
piece that is not there would be a fault. In the storage that the operations make there is none, and
it is the storage of the image that they make. -/

namespace Handset

/-- An image before anything is known of it. -/
structure Sheet where
  width : Int
  height : Int
  pixels : Array UInt32
  deriving DecidableEq

def Image.sheet (image : Image) : Sheet :=
  ⟨image.width, image.height, image.pixels⟩

namespace Sheet

/-- What a place or a piece outside of the pixels ends in. -/
def outside : Fault :=
  .raised (some "out of bounds")

/-- An integer as a place or a length; a negative one would be past every end. -/
def unsigned (n : Int) : Except Fault Nat :=
  if 0 ≤ n then .ok n.toNat else .error outside

def filled (width height : Int) (color : UInt32) : Sheet where
  width := max width 1
  height := max height 1
  pixels := .replicate ((max width 1).toNat * (max height 1).toNat) color

def blank (width height : Int) : Sheet :=
  filled width height opaqueWhite

/-- Cuts pixels off, or adds pixels of one colour. -/
def resize (pixels : Array UInt32) (count : Nat) (color : UInt32) : Array UInt32 :=
  pixels.take count ++ Array.replicate (count - pixels.size) color

/-- Uses the storage of a previous image, emptied, if there is one. -/
def reallocate (previous : Option Sheet) (width height : Int) : Sheet :=
  match previous with
  | none => blank width height
  | some sheet =>
    { width := max width 1
      height := max height 1
      pixels := resize (sheet.pixels.take 0) ((max width 1).toNat * (max height 1).toNat)
        opaqueWhite }

def Holds (sheet : Sheet) (x y : Int) : Prop :=
  0 ≤ x ∧ 0 ≤ y ∧ x < sheet.width ∧ y < sheet.height

instance (sheet : Sheet) (x y : Int) : Decidable (sheet.Holds x y) :=
  inferInstanceAs (Decidable (_ ∧ _))

/-- The place of a pixel, in 32-bit arithmetic. -/
def place (sheet : Sheet) (x y : Int) : Except Fault Nat := do
  let row ← Checked.mul y sheet.width
  let place ← Checked.add row x
  unsigned place

def read (sheet : Sheet) (x y : Int) : Except Fault (Option UInt32) :=
  if sheet.Holds x y then do
    let i ← sheet.place x y
    match sheet.pixels[i]? with
    | some color => return some color
    | none => throw outside
  else return none

def write (sheet : Sheet) (x y : Int) (color : UInt32) : Except Fault Sheet :=
  if sheet.Holds x y then do
    let i ← sheet.place x y
    if i < sheet.pixels.size then
      return { sheet with pixels := sheet.pixels.setIfInBounds i color }
    else throw outside
  else return sheet

def fill (sheet : Sheet) (color : UInt32) : Sheet :=
  { sheet with pixels := sheet.pixels.map fun _ => color }

/-- Copies `count` pixels, from the place `start` on, to the place `goal`. -/
def copyPiece (source target : Array UInt32) (start goal count : Nat) :
    Except Fault (Array UInt32) :=
  if start + count ≤ source.size ∧ goal + count ≤ target.size then
    .ok <| target.mapIdx fun i old =>
      if goal ≤ i ∧ i < goal + count then source[start + (i - goal)]?.getD old else old
  else .error outside

/-- Copies `count` rows, from `row` on, up to a column. A stride is the length of a row. -/
def copyRows (source : Array UInt32) (stride goalStride columns : Nat) :
    Nat → Nat → Array UInt32 → Except Fault (Array UInt32)
  | 0, _, target => .ok target
  | count + 1, row, target => do
    let target ← copyPiece source target (row * stride) (row * goalStride) columns
    copyRows source stride goalStride columns count (row + 1) target

/-- Copies what both have, row by row. -/
def copyOverlap (sheet target : Sheet) : Except Fault Sheet := do
  let columns ← unsigned (min sheet.width target.width)
  let rows ← unsigned (min sheet.height target.height)
  let stride ← unsigned sheet.width
  let goalStride ← unsigned target.width
  let pixels ← copyRows sheet.pixels stride goalStride columns rows 0 target.pixels
  return { target with pixels }

/-- Copies all pixels at once where the sides are the same. -/
def copyTo (sheet target : Sheet) : Except Fault Sheet :=
  if sheet.width = target.width ∧ sheet.height = target.height then
    if sheet.pixels.size = target.pixels.size then .ok { target with pixels := sheet.pixels }
    else .error outside
  else sheet.copyOverlap target

/-- The same operations make the storage and the image. -/
inductive Made : Sheet → Image → Prop
  | blank (width height : Int) : Made (.blank width height) (.blank width height)
  | filled (width height : Int) (color : UInt32) :
      Made (.filled width height color) (.filled width height color)
  | allocate (width height : Int) :
      Made (.reallocate none width height) (.reallocate none width height)
  | reallocate {sheet : Sheet} {image : Image} (made : Made sheet image) (width height : Int) :
      Made (.reallocate (some sheet) width height) (.reallocate (some image) width height)
  | fill {sheet : Sheet} {image : Image} (made : Made sheet image) (color : UInt32) :
      Made (sheet.fill color) (image.fill color)
  | write {sheet sheet' : Sheet} {image : Image} {x y : Int} {color : UInt32}
      (made : Made sheet image) (written : sheet.write x y color = .ok sheet') :
      Made sheet' (image.set x y color)
  | copy {sheet target target' : Sheet} {image other : Image} (made : Made sheet image)
      (madeTarget : Made target other) (copied : sheet.copyTo target = .ok target') :
      Made target' (image.copyTo other)

theorem unsigned_natCast (n : Nat) : unsigned n = .ok n := by
  simp [unsigned]

variable {image target : Image} {sheet : Sheet} {x y : Int}

theorem holds_sheet : image.sheet.Holds x y ↔ image.Holds x y := by
  unfold Holds Image.Holds Image.sheet
  constructor <;> (rintro ⟨hx, hy, hw, hh⟩; exact ⟨hx, ‹_›, ‹_›, ‹_›⟩)

/-- Whatever has a place in 32 bits has the right one. -/
theorem eq_index_of_place {i : Nat} (computed : image.sheet.place x y = .ok i) :
    i = image.index x y := by
  obtain ⟨row, product, rest⟩ := Checked.bind_eq_ok.mp computed
  obtain ⟨sum, added, rest⟩ := Checked.bind_eq_ok.mp rest
  rw [Checked.eq_of_result added, Checked.eq_of_result product] at rest
  unfold unsigned at rest
  split at rest
  · cases rest
    rfl
  · cases rest

/-- The pixels are no more than 32 bits can count. -/
def Small (sheet : Sheet) : Prop :=
  sheet.width * sheet.height ≤ greatestInt

instance (sheet : Sheet) : Decidable sheet.Small :=
  inferInstanceAs (Decidable (_ ≤ _))

theorem place_eq (small : image.sheet.Small) (holds : image.Holds x y) :
    image.sheet.place x y = .ok (image.index x y) := by
  have inside := holds.index_lt
  have place := holds.index_eq
  rw [image.size_eq] at inside
  have small : (image.width : Int) * image.height ≤ greatestInt := small
  have row : 0 ≤ y * (image.width : Int) :=
    Int.mul_nonneg holds.2.2.1 (Int.natCast_nonneg _)
  have size : ((image.width * image.height : Nat) : Int) = image.width * image.height :=
    Int.natCast_mul ..
  have left := holds.1
  have product : Checked.mul y image.width = .ok (y * image.width) :=
    Checked.result_of_nonneg row (by omega)
  have sum : Checked.add (y * image.width) x = .ok (y * image.width + x) :=
    Checked.result_of_nonneg (by omega) (by omega)
  have known : unsigned (y * image.width + x) = .ok (image.index x y) := by
    rw [← place]
    exact unsigned_natCast _
  unfold Sheet.place
  rw [show image.sheet.width = image.width from rfl, product]
  exact (congrArg (· >>= unsigned) sum).trans known

theorem read_sheet (small : image.sheet.Small) (x y : Int) :
    image.sheet.read x y = .ok (image.pixel? x y) := by
  unfold read
  by_cases holds : image.Holds x y
  · have inside := holds.index_lt
    have found : image.pixels[image.index x y]? = some image.pixels[image.index x y] :=
      Array.getElem?_eq_getElem inside
    rw [if_pos (holds_sheet.mpr holds), place_eq small holds, Image.pixel?_of_holds holds inside]
    simp only [Image.sheet, bind, Except.bind, found]
    rfl
  · rw [if_neg (mt holds_sheet.mp holds), Image.pixel?_eq_none_iff.mpr holds]
    rfl

/-- A write that has a result has the right one. -/
theorem eq_set_of_write {color : UInt32} (written : image.sheet.write x y color = .ok sheet) :
    sheet = (image.set x y color).sheet := by
  unfold write at written
  unfold Image.set
  by_cases holds : image.Holds x y
  · rw [if_pos (holds_sheet.mpr holds)] at written
    obtain ⟨i, place, stored⟩ := Checked.bind_eq_ok.mp written
    rw [eq_index_of_place place] at stored
    split at stored
    · cases stored
      rw [if_pos holds]
      rfl
    · cases stored
  · rw [if_neg (mt holds_sheet.mp holds)] at written
    cases written
    rw [if_neg holds]

theorem write_sheet (small : image.sheet.Small) (x y : Int) (color : UInt32) :
    image.sheet.write x y color = .ok (image.set x y color).sheet := by
  unfold write Image.set
  by_cases holds : image.Holds x y
  · have inside : image.index x y < image.sheet.pixels.size := holds.index_lt
    rw [if_pos (holds_sheet.mpr holds), if_pos holds, place_eq small holds]
    simp only [bind, Except.bind, if_pos inside]
    rfl
  · rw [if_neg (mt holds_sheet.mp holds), if_neg holds]
    rfl

theorem filled_eq (width height : Int) (color : UInt32) :
    filled width height color = (Image.filled width height color).sheet := by
  have atLeast (n : Int) : ((max n 1).toNat : Int) = max n 1 := by omega
  unfold filled Image.filled Image.sheet
  rw [atLeast, atLeast]

theorem fill_sheet (image : Image) (color : UInt32) :
    image.sheet.fill color = (image.fill color).sheet := by
  unfold fill Image.fill Image.sheet
  rw [Array.map_const']

theorem resize_empty (pixels : Array UInt32) (count : Nat) (color : UInt32) :
    resize (pixels.take 0) count color = Array.replicate count color := by
  simp [resize]

theorem reallocate_eq (previous : Option Sheet) (width height : Int) :
    reallocate previous width height = blank width height := by
  cases previous with
  | none => rfl
  | some sheet => simp only [reallocate, blank, filled, resize_empty]

theorem pixel?_natCast {x y : Nat} (across : x < image.width) (down : y < image.height) :
    image.pixel? x y = image.pixels[y * image.width + x]? := by
  have place : image.index x y = y * image.width + x := by
    unfold Image.index
    rw [← Int.natCast_mul, ← Int.natCast_add, Int.toNat_natCast]
  have holds : image.Holds x y :=
    ⟨Int.natCast_nonneg x, Int.ofNat_lt.mpr across, Int.natCast_nonneg y, Int.ofNat_lt.mpr down⟩
  rw [Image.pixel?, if_pos holds, place]

/-- A row has its places for itself. -/
theorem place_mem_piece {row stride columns x y : Nat} (across : x < stride)
    (fits : columns ≤ stride) :
    (row * stride ≤ y * stride + x ∧ y * stride + x < row * stride + columns) ↔
      y = row ∧ x < columns := by
  rcases Nat.lt_trichotomy y row with above | rfl | below
  · have : (y + 1) * stride ≤ row * stride := Nat.mul_le_mul_right _ above
    rw [Nat.succ_mul] at this
    omega
  · omega
  · have : (row + 1) * stride ≤ y * stride := Nat.mul_le_mul_right _ below
    rw [Nat.succ_mul] at this
    omega

theorem piece_le_size {row columns : Nat} (down : row < image.height)
    (fits : columns ≤ image.width) : row * image.width + columns ≤ image.pixels.size :=
  calc row * image.width + columns ≤ row * image.width + image.width := Nat.add_le_add_left fits _
    _ = (row + 1) * image.width := (Nat.succ_mul row image.width).symm
    _ ≤ image.height * image.width := Nat.mul_le_mul_right _ down
    _ = image.pixels.size := by rw [image.size_eq, Nat.mul_comm]

/-- A piece of a row is the row up to a column. -/
theorem copyPiece_eq {row columns : Nat} (down : row < image.height) (down' : row < target.height)
    (fits : columns ≤ image.width) (fits' : columns ≤ target.width) :
    copyPiece image.pixels target.pixels (row * image.width) (row * target.width) columns =
      .ok (Image.setRow (fun x => (image.pixel? x row).getD 0) row columns 0 target).pixels := by
  rw [copyPiece, if_pos ⟨piece_le_size down fits, piece_le_size down' fits'⟩]
  congr 1
  -- Both are the pixels of images, and these have the same pixel at each point.
  let patched : Image := { target with
    pixels := target.pixels.mapIdx fun i old =>
      if row * target.width ≤ i ∧ i < row * target.width + columns then
        image.pixels[row * image.width + (i - row * target.width)]?.getD old else old
    size_eq := by rw [Array.size_mapIdx, target.size_eq] }
  suffices same : patched =
      Image.setRow (fun x => (image.pixel? x row).getD 0) row columns 0 target from
    congrArg Image.pixels same
  refine Image.ext_pixel? ?_ fun x y holds => ?_
  · unfold Image.size
    rw [Image.width_setRow, Image.height_setRow]
  · have inside : target.Holds x y := holds
    obtain ⟨x, rfl⟩ := Int.eq_ofNat_of_zero_le holds.1
    obtain ⟨y, rfl⟩ := Int.eq_ofNat_of_zero_le holds.2.2.1
    have across : x < target.width := Int.ofNat_lt.mp holds.2.1
    have deep : y < target.height := Int.ofNat_lt.mp holds.2.2.2
    have read : patched.pixel? x y = patched.pixels[y * target.width + x]? :=
      @pixel?_natCast patched x y across deep
    rw [read, Image.pixel?_setRow]
    simp only [patched, Array.getElem?_mapIdx, place_mem_piece across fits', inside, true_and,
      Int.natCast_inj, Int.zero_add, Int.ofNat_lt, Int.natCast_nonneg]
    rw [← pixel?_natCast across deep]
    by_cases within : y = row ∧ x < columns
    · obtain ⟨rfl, left⟩ := within
      obtain ⟨old, found⟩ := Option.isSome_iff_exists.mp (Image.pixel?_isSome.mpr inside)
      have known : x < image.width := Nat.lt_of_lt_of_le left fits
      have source : image.Holds x y := ⟨Int.natCast_nonneg x, Int.ofNat_lt.mpr known,
        Int.natCast_nonneg y, Int.ofNat_lt.mpr down⟩
      obtain ⟨color, shown⟩ := Option.isSome_iff_exists.mp (Image.pixel?_isSome.mpr source)
      rw [if_pos ⟨rfl, left⟩, found, Option.map_some, if_pos ⟨rfl, left⟩, Nat.add_sub_cancel_left,
        ← pixel?_natCast known down, shown]
      rfl
    · simp only [if_neg within, Option.map_id']

theorem copyRows_eq {columns : Nat} (fits : columns ≤ image.width)
    (fits' : columns ≤ target.width) (count row : Nat) (down : row + count ≤ image.height)
    (down' : row + count ≤ target.height) :
    copyRows image.pixels image.width target.width columns count row target.pixels =
      .ok (Image.setRows (fun y x => (image.pixel? x y).getD 0) 0 columns count row
        target).pixels := by
  induction count generalizing row target with
  | zero => rfl
  | succ count ih =>
    let next := Image.setRow (fun x => (image.pixel? x row).getD 0) row columns 0 target
    have width : next.width = target.width := Image.width_setRow ..
    have height : next.height = target.height := Image.height_setRow ..
    have fitsNext : columns ≤ next.width := by rw [width]; exact fits'
    have rest := ih fitsNext (row + 1) (by omega) (by omega)
    rw [width] at rest
    rw [copyRows, copyPiece_eq (by omega) (by omega) fits fits']
    exact rest

/-- Setting what both have is copying, also where the sides are the same. -/
theorem setArea_overlap (image target : Image) :
    (target.setArea ⟨0, 0, min image.width target.width, min image.height target.height⟩
      fun y x => (image.pixel? x y).getD 0) = image.copyTo target := by
  refine Image.ext_pixel? ?_ fun x y _ => ?_
  · unfold Image.size
    rw [Image.width_setArea, Image.height_setArea, Image.width_copyTo, Image.height_copyTo]
  · rw [Image.pixel?_setArea, Image.pixel?_copyTo]
    have overlap : target.Holds x y ∧ Rect.Covers ⟨0, 0, min image.width target.width,
        min image.height target.height⟩ x y ↔ image.Holds x y ∧ target.Holds x y := by
      unfold Rect.Covers Image.Holds
      simp only
      omega
    simp only [overlap]
    by_cases both : image.Holds x y ∧ target.Holds x y
    · obtain ⟨color, shown⟩ := Option.isSome_iff_exists.mp (Image.pixel?_isSome.mpr both.1)
      rw [if_pos both, if_pos both, shown]
      rfl
    · rw [if_neg both, if_neg both]

theorem min_natCast (a b : Nat) : min (a : Int) b = (min a b : Nat) := by
  omega

theorem copyOverlap_sheet (image target : Image) :
    image.sheet.copyOverlap target.sheet = .ok (image.copyTo target).sheet := by
  have copied := copyRows_eq (Nat.min_le_left image.width target.width) (Nat.min_le_right ..)
    (min image.height target.height) 0 (by omega) (by omega)
  have result := setArea_overlap image target
  unfold Image.setArea at result
  simp only [min_natCast, Int.toNat_natCast] at result
  rw [Int.natCast_zero, result] at copied
  unfold copyOverlap Image.sheet
  simp only [min_natCast, unsigned_natCast, bind, Except.bind, copied, Image.width_copyTo,
    Image.height_copyTo]
  rfl

theorem copyTo_sheet (image target : Image) :
    image.sheet.copyTo target.sheet = .ok (image.copyTo target).sheet := by
  unfold copyTo
  split
  · rename_i same
    have width : image.width = target.width := Int.ofNat_inj.mp same.1
    have height : image.height = target.height := Int.ofNat_inj.mp same.2
    have size : image.sheet.pixels.size = target.sheet.pixels.size := by
      unfold Image.sheet
      rw [image.size_eq, target.size_eq, width, height]
    rw [if_pos size, Image.copyTo_eq_self ⟨width, height⟩]
    unfold Image.sheet
    rw [width, height]
  · exact copyOverlap_sheet image target

/-- The storage that operations make is that of the image that they make. -/
theorem Made.sheet_eq (made : Made sheet image) : image.sheet = sheet := by
  induction made with
  | blank => exact (filled_eq ..).symm
  | filled => exact (filled_eq ..).symm
  | allocate => exact (filled_eq ..).symm
  | reallocate =>
    rw [reallocate_eq, Image.reallocate_eq_blank]
    exact (filled_eq ..).symm
  | fill _ _ ih => rw [← ih, fill_sheet]
  | write _ written ih =>
    rw [← ih] at written
    exact (eq_set_of_write written).symm
  | copy _ _ copied ih ih' =>
    rw [← ih, ← ih', copyTo_sheet] at copied
    exact Except.ok.inj copied

/-- A write changes the pixel at its point, if there is one, and nothing else. -/
theorem write_exact (small : image.sheet.Small) (x y : Int) (color : UInt32) :
    ∃ sheet', image.sheet.write x y color = .ok sheet' ∧
      sheet'.width = image.sheet.width ∧ sheet'.height = image.sheet.height ∧
      (¬ image.sheet.Holds x y → sheet' = image.sheet) ∧
      ∀ u v, sheet'.read u v =
        if image.sheet.Holds x y ∧ u = x ∧ v = y then .ok (some color)
        else image.sheet.read u v := by
  have width : (image.set x y color).sheet.width = image.sheet.width :=
    congrArg Int.ofNat (image.width_set x y color)
  have height : (image.set x y color).sheet.height = image.sheet.height :=
    congrArg Int.ofNat (image.height_set x y color)
  have smallAfter : (image.set x y color).sheet.Small := by
    unfold Small
    rw [width, height]
    exact small
  refine ⟨_, write_sheet small x y color, width, height, fun beside => ?_, fun u v => ?_⟩
  · rw [Image.set, if_neg (mt holds_sheet.mpr beside)]
  · rw [read_sheet smallAfter, read_sheet small, Image.pixel?_set]
    have point : image.Holds u v ∧ u = x ∧ v = y ↔ image.sheet.Holds x y ∧ u = x ∧ v = y := by
      rw [holds_sheet]
      exact and_congr_left fun here => by rw [here.1, here.2]
    simp only [point]
    split <;> rfl

/-- A copy takes over the pixels that both have and changes no other, at once or row by row. -/
theorem copyTo_exact (image target : Image) : ∃ sheet',
    image.sheet.copyTo target.sheet = .ok sheet' ∧
    image.sheet.copyOverlap target.sheet = .ok sheet' ∧
    sheet'.width = target.sheet.width ∧ sheet'.height = target.sheet.height ∧
    (image.sheet.Small → target.sheet.Small → ∀ x y, sheet'.read x y =
      if image.sheet.Holds x y ∧ target.sheet.Holds x y then image.sheet.read x y
      else target.sheet.read x y) := by
  have width : (image.copyTo target).sheet.width = target.sheet.width :=
    congrArg Int.ofNat (image.width_copyTo target)
  have height : (image.copyTo target).sheet.height = target.sheet.height :=
    congrArg Int.ofNat (image.height_copyTo target)
  refine ⟨_, copyTo_sheet image target, copyOverlap_sheet image target, width, height,
    fun small small' x y => ?_⟩
  have smallAfter : (image.copyTo target).sheet.Small := by
    unfold Small
    rw [width, height]
    exact small'
  rw [read_sheet smallAfter, read_sheet small, read_sheet small', Image.pixel?_copyTo]
  simp only [holds_sheet]
  split <;> rfl

/-- Storage that any operations have made. It has as many pixels as its sides ask for, and at least
one. As long as 32 bits can count them, reading and writing never fault, a read finds a pixel at the
points inside and at no other, and a write changes that pixel only. Storage that is used again is as
new. A copy never faults, and is pixel by pixel. The same operations make an image of this storage,
and its pixels are those that are read. -/
theorem storage_sound (made : Made sheet image) :
    (1 ≤ sheet.width ∧ 1 ≤ sheet.height ∧ sheet.pixels.size = sheet.width * sheet.height) ∧
    (sheet.Small → ∀ x y,
      (∃ found, sheet.read x y = .ok found ∧ (found.isSome = true ↔ sheet.Holds x y)) ∧
      ∀ color, ∃ sheet', sheet.write x y color = .ok sheet' ∧
        sheet'.width = sheet.width ∧ sheet'.height = sheet.height ∧
        (¬ sheet.Holds x y → sheet' = sheet) ∧
        ∀ u v, sheet'.read u v =
          if sheet.Holds x y ∧ u = x ∧ v = y then .ok (some color) else sheet.read u v) ∧
    (∀ width height, reallocate (some sheet) width height = blank width height) ∧
    (∀ target other, Made target other → ∃ target', sheet.copyTo target = .ok target' ∧
      sheet.copyOverlap target = .ok target' ∧
      target'.width = target.width ∧ target'.height = target.height ∧
      (sheet.Small → target.Small → ∀ x y, target'.read x y =
        if sheet.Holds x y ∧ target.Holds x y then sheet.read x y else target.read x y)) ∧
    image.sheet = sheet ∧ (sheet.Small → ∀ x y, sheet.read x y = .ok (image.pixel? x y)) := by
  obtain rfl := made.sheet_eq
  refine ⟨⟨?_, ?_, ?_⟩, fun small x y => ⟨⟨_, read_sheet small x y, ?_⟩, write_exact small x y⟩,
    reallocate_eq _, fun target other madeTarget => ?_, rfl, fun small => read_sheet small⟩
  · exact Int.ofNat_le.mpr image.width_pos
  · exact Int.ofNat_le.mpr image.height_pos
  · exact (congrArg Int.ofNat image.size_eq).trans (Int.natCast_mul ..)
  · exact Image.pixel?_isSome.trans holds_sheet.symm
  · obtain rfl := madeTarget.sheet_eq
    exact copyTo_exact image other

/-- A wide sheet with one pixel of another colour. -/
def spotted : Sheet :=
  ⟨3, 2, #[7, 7, 7, 7, 5, 7]⟩

theorem made_spotted : Made spotted ((Image.filled 3 2 7).set 1 1 5) := by
  have written : (filled 3 2 7).write 1 1 5 = .ok spotted := rfl
  exact .write (.filled 3 2 7) written

/-- Copied on a high sheet, where the rows are shorter, the pixel stays in its row and column. -/
theorem storage_sound_spottedOnHigh : ∃ image : Image, Made spotted image ∧ spotted.Small ∧
    spotted.read 1 1 = .ok (image.pixel? 1 1) ∧
    ∃ target', spotted.copyTo (blank 2 3) = .ok target' ∧
      spotted.copyOverlap (blank 2 3) = .ok target' ∧ target'.read 1 1 = .ok (some 5) ∧
      target'.read 1 2 = (blank 2 3).read 1 2 := by
  have small : spotted.Small := by decide
  have small' : (blank 2 3).Small := by decide
  obtain ⟨-, -, -, copies, -, reads⟩ := storage_sound made_spotted
  obtain ⟨target', copied, overlap, -, -, pixels⟩ := copies _ _ (.blank 2 3)
  have both : spotted.Holds 1 1 ∧ (blank 2 3).Holds 1 1 := by decide
  have below : ¬ (spotted.Holds 1 2 ∧ (blank 2 3).Holds 1 2) := by decide
  refine ⟨_, made_spotted, small, reads small 1 1, target', copied, overlap, ?_, ?_⟩
  · rw [pixels small small', if_pos both]
    rfl
  · rw [pixels small small', if_neg below]

end Sheet

end Handset
