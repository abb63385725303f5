import Handset.Graphics.Laws
import Handset.Image.Pixels
import Handset.Proofs.Rectangles

/-! Pixels within reach: those whose place in the rows is a 32-bit number. An image that 32 bits can
count has all its pixels within reach. In a larger one drawing comes to an end at the first pixel
that is not, and what it drew before stays. -/

namespace Handset

open Checked (Fits)

namespace Image

variable {image image' : Image} {x y : Int}

/-- If the image has a pixel at the point, the place of the pixel is a 32-bit number. -/
def Reaches (image : Image) (x y : Int) : Prop :=
  image.Holds x y → y * image.width + x ≤ greatestInt

/-- A 32-bit number counts the pixels. -/
def Small (image : Image) : Prop :=
  (image.width : Int) * image.height ≤ greatestInt

instance (image : Image) : Decidable image.Small :=
  inferInstanceAs (Decidable (_ ≤ _))

theorem Small.reaches (small : image.Small) (x y : Int) : image.Reaches x y := by
  intro holds
  have inside := holds.index_lt
  have place := holds.index_eq
  unfold Small at small
  rw [image.size_eq] at inside
  have inside : (image.index x y : Int) < image.width * image.height := by exact_mod_cast inside
  omega

/-- The place of a pixel is found just where it is a 32-bit number. -/
theorem place?_eq_ok {place : Option Nat} : image.place? x y = .ok place ↔
    image.Reaches x y ∧ place = if image.Holds x y then some (image.index x y) else none := by
  unfold place? Reaches
  by_cases holds : image.Holds x y
  · have row : 0 ≤ y * image.width := Int.mul_nonneg holds.2.2.1 (Int.natCast_nonneg _)
    have left := holds.1
    simp only [holds, if_true, true_imp_iff]
    constructor
    · intro found
      obtain ⟨_, across, found⟩ := Checked.bind_eq_ok.mp found
      obtain ⟨_, along, found⟩ := Checked.bind_eq_ok.mp found
      obtain ⟨-, rfl⟩ := Checked.result_eq_ok.mp across
      obtain ⟨fits, rfl⟩ := Checked.result_eq_ok.mp along
      cases found
      exact ⟨fits.2, rfl⟩
    · rintro ⟨le, rfl⟩
      have across : Checked.mul y image.width = .ok (y * image.width) :=
        Checked.result_of_nonneg row (by omega)
      have along : Checked.add (y * image.width) x = .ok (y * image.width + x) :=
        Checked.result_of_nonneg (by omega) le
      simp only [across, along, bind, Except.bind]
      rfl
  · simp only [holds, if_false, false_imp_iff, true_and]
    exact ⟨fun found => (Except.ok.inj found).symm, fun same => same ▸ rfl⟩

theorem read_eq_ok {pixel : Option UInt32} :
    image.read x y = .ok pixel ↔ image.Reaches x y ∧ pixel = image.pixel? x y := by
  unfold read pixel?
  constructor
  · intro found
    obtain ⟨_, place, found⟩ := Checked.bind_eq_ok.mp found
    obtain ⟨reaches, rfl⟩ := place?_eq_ok.mp place
    cases found
    refine ⟨reaches, ?_⟩
    split <;> rfl
  · rintro ⟨reaches, rfl⟩
    rw [place?_eq_ok.mpr ⟨reaches, rfl⟩]
    split <;> rfl

theorem Small.read_eq (small : image.Small) (x y : Int) :
    image.read x y = .ok (image.pixel? x y) :=
  read_eq_ok.mpr ⟨small.reaches x y, rfl⟩

/-- It depends on the sides alone what is within reach. -/
theorem reaches_of_size (width : image.width = image'.width) (height : image.height = image'.height) :
    image.Reaches x y ↔ image'.Reaches x y := by
  unfold Reaches Holds
  rw [width, height]

@[simp] theorem reaches_set (u v : Int) (color : UInt32) :
    (image.set u v color).Reaches x y ↔ image.Reaches x y := by
  simp [Reaches]

@[simp] theorem reaches_setRow (color : Int → UInt32) (v : Int) (count : Nat) (u : Int) :
    (setRow color v count u image).Reaches x y ↔ image.Reaches x y := by
  simp [Reaches]

end Image

namespace Draw

variable {g g' : Graphics}

/-- A pixel is set just where it is within reach. -/
theorem setPixel_eq_ok {x y : Int} {color : UInt32} :
    (setPixel x y color).run.run g = (.ok (), g') ↔
      g.target.Reaches x y ∧ g' = { g with target := g.target.set x y color } := by
  simp only [setPixel, run_get_bind, run_liftM_bind_eq_ok, Image.place?_eq_ok, and_assoc,
    exists_and_left, exists_eq_left]
  refine and_congr_right' ?_
  unfold Image.set
  by_cases holds : g.target.Holds x y
  · simp only [holds, if_true]
    exact run_modify_eq_ok
  · simp only [holds, if_false]
    exact ⟨fun ran => by cases ran; rfl, fun same => by rw [same]; rfl⟩

variable {color : Int → Int → Except Fault UInt32} {x y : Int}

/-- The pixel can be painted: it has a colour, and is within reach. -/
def Paintable (target : Image) (color : Int → Int → Except Fault UInt32) (x y : Int) : Prop :=
  (∃ c, color x y = .ok c) ∧ target.Reaches x y

theorem paintable_ok {target : Image} {c : UInt32} :
    Paintable target (fun _ _ => .ok c) x y ↔ target.Reaches x y :=
  and_iff_right ⟨c, rfl⟩

/-- The colour that is computed, if one is, with the row first. -/
def shade (color : Int → Int → Except Fault UInt32) (y x : Int) : UInt32 :=
  match color x y with
  | .ok c => c
  | .error _ => 0

theorem shade_eq {c : UInt32} (computed : color x y = .ok c) : shade color y x = c := by
  rw [shade, computed]

theorem paintPixel_eq_ok :
    (do setPixel x y (← color x y) : Draw Unit).run.run g = (.ok (), g') ↔
      Paintable g.target color x y ∧
        g' = { g with target := g.target.set x y (shade color y x) } := by
  rw [run_liftM_bind_eq_ok]
  constructor
  · rintro ⟨c, computed, ran⟩
    obtain ⟨reaches, rfl⟩ := setPixel_eq_ok.mp ran
    exact ⟨⟨⟨c, computed⟩, reaches⟩, by rw [shade_eq computed]⟩
  · rintro ⟨⟨⟨c, computed⟩, reaches⟩, rfl⟩
    exact ⟨c, computed, setPixel_eq_ok.mpr ⟨reaches, by rw [shade_eq computed]⟩⟩

theorem paintRow_eq_ok (count : Nat) (x : Int) (g : Graphics) :
    (forEach (fun x => do setPixel x y (← color x y)) count x).run.run g = (.ok (), g') ↔
      (∀ u, x ≤ u → u < x + count → Paintable g.target color u y) ∧
        g' = { g with target := Image.setRow (shade color y) y count x g.target } := by
  induction count generalizing x g with
  | zero => exact ⟨fun ran => by cases ran; exact ⟨by omega, rfl⟩, fun h => by rw [h.2]; rfl⟩
  | succ count ih =>
    rw [forEach, run_bind_eq_ok]
    constructor
    · rintro ⟨_, g₁, first, rest⟩
      obtain ⟨here, rfl⟩ := paintPixel_eq_ok.mp first
      obtain ⟨ahead, rfl⟩ := (ih _ _).mp rest
      refine ⟨fun u le lt => ?_, rfl⟩
      rcases Int.lt_or_eq_of_le le with lt' | rfl
      · simpa only [Paintable, Image.reaches_set] using ahead u lt' (by omega)
      · exact here
    · rintro ⟨all, rfl⟩
      refine ⟨(), _, paintPixel_eq_ok.mpr ⟨all x (Int.le_refl x) (by omega), rfl⟩,
        (ih _ _).mpr ⟨fun u le lt => ?_, rfl⟩⟩
      simpa only [Paintable, Image.reaches_set] using all u (by omega) (by omega)

theorem paintRows_eq_ok {width : Nat} (count : Nat) (y : Int) (g : Graphics) :
    (forEach (fun y => forEach (fun x => do setPixel x y (← color x y)) width x) count y).run.run g =
        (.ok (), g') ↔
      (∀ v, y ≤ v → v < y + count → ∀ u, x ≤ u → u < x + width → Paintable g.target color u v) ∧
        g' = { g with target := Image.setRows (shade color) x width count y g.target } := by
  induction count generalizing y g with
  | zero => exact ⟨fun ran => by cases ran; exact ⟨by omega, rfl⟩, fun h => by rw [h.2]; rfl⟩
  | succ count ih =>
    rw [forEach, run_bind_eq_ok]
    constructor
    · rintro ⟨_, g₁, first, rest⟩
      obtain ⟨here, rfl⟩ := (paintRow_eq_ok _ _ _).mp first
      obtain ⟨ahead, rfl⟩ := (ih _ _).mp rest
      refine ⟨fun v le lt u left right => ?_, rfl⟩
      rcases Int.lt_or_eq_of_le le with lt' | rfl
      · simpa only [Paintable, Image.reaches_setRow] using ahead v lt' (by omega) u left right
      · exact here u left right
    · rintro ⟨all, rfl⟩
      refine ⟨(), _, (paintRow_eq_ok _ _ _).mpr ⟨all y (Int.le_refl y) (by omega), rfl⟩,
        (ih _ _).mpr ⟨fun v le lt u left right => ?_, rfl⟩⟩
      simpa only [Paintable, Image.reaches_setRow] using all v (by omega) (by omega) u left right

/-- An area is painted just where all of its pixels can be. -/
theorem paintArea_eq_ok {area : Rect} : (paintArea area color).run.run g = (.ok (), g') ↔
    (∀ x y, area.Covers x y → Paintable g.target color x y) ∧
      g' = { g with target := g.target.setArea area (shade color) } := by
  rw [paintArea, paintRows_eq_ok]
  refine and_congr_left' ⟨fun all x y covers => ?_, fun all v top bottom u left right => ?_⟩
  · obtain ⟨left, right, top, bottom⟩ := covers
    exact all y top (by omega) x left (by omega)
  · exact all u v ⟨left, by omega, top, by omega⟩

end Draw

end Handset
