import Handset.Image

/-! What the operations on an image do to its pixels, as `pixel?` shows them: every operation but
`resized` keeps the sides, and changes the pixels it is to change and no other. -/

namespace Handset.Image

variable {image : Image} {x y : Int}

theorem Holds.index_eq (h : image.Holds x y) : (image.index x y : Int) = y * image.width + x := by
  obtain ⟨hx, -, hy, -⟩ := h
  have := Int.mul_nonneg hy (Int.natCast_nonneg image.width)
  unfold index
  omega

theorem Holds.index_lt (h : image.Holds x y) : image.index x y < image.pixels.size := by
  have hi := h.index_eq
  obtain ⟨-, hx, -, hy⟩ := h
  have hrow : y * image.width ≤ (image.height - 1) * image.width :=
    Int.mul_le_mul_of_nonneg_right (by omega) (Int.natCast_nonneg _)
  have hsize : ((image.width * image.height : Nat) : Int)
      = (image.height - 1) * image.width + image.width := by
    rw [Int.sub_mul, Int.one_mul, Int.natCast_mul, Int.mul_comm]
    omega
  rw [image.size_eq]
  omega

/-- Each pixel has a place of its own. -/
theorem Holds.index_inj {x' y' : Int} (h : image.Holds x y) (h' : image.Holds x' y') :
    image.index x y = image.index x' y' ↔ x = x' ∧ y = y' := by
  constructor
  · intro e
    have hi := h.index_eq
    have hi' := h'.index_eq
    have hw : (image.width : Int) ≠ 0 := by have := image.width_pos; omega
    have hx : (image.index x y : Int) % image.width = x := by
      rw [hi, Int.add_comm, Int.add_mul_emod_self_right]
      exact Int.emod_eq_of_lt h.1 h.2.1
    have hx' : (image.index x' y' : Int) % image.width = x' := by
      rw [hi', Int.add_comm, Int.add_mul_emod_self_right]
      exact Int.emod_eq_of_lt h'.1 h'.2.1
    have hxx : x = x' := by rw [← hx, ← hx', e]
    refine ⟨hxx, Int.eq_of_mul_eq_mul_right hw ?_⟩
    omega
  · rintro ⟨rfl, rfl⟩
    rfl

theorem pixel?_of_holds (h : image.Holds x y) (hi : image.index x y < image.pixels.size) :
    image.pixel? x y = some image.pixels[image.index x y] := by
  rw [pixel?, if_pos h, Array.getElem?_eq_getElem hi]

/-- A point has a pixel exactly when the image holds it. -/
@[simp] theorem pixel?_isSome : (image.pixel? x y).isSome ↔ image.Holds x y := by
  by_cases h : image.Holds x y
  · simp [pixel?_of_holds h h.index_lt, h]
  · simp [pixel?, h]

theorem pixel?_eq_none_iff : image.pixel? x y = none ↔ ¬ image.Holds x y := by
  rw [← pixel?_isSome, Bool.not_eq_true, Option.isSome_eq_false_iff, Option.isNone_iff_eq_none]

@[simp] theorem holds_set (u v : Int) (color : UInt32) :
    (image.set u v color).Holds x y ↔ image.Holds x y := by
  simp [Holds]

theorem pixel?_set (u v : Int) (color : UInt32) :
    (image.set u v color).pixel? x y
      = if image.Holds x y ∧ x = u ∧ y = v then some color else image.pixel? x y := by
  by_cases h : image.Holds x y
  · by_cases hu : image.Holds u v
    · have hi : image.index u v = image.index x y ↔ x = u ∧ y = v := by
        rw [eq_comm, h.index_inj hu]
      have hlt := h.index_lt
      simp only [pixel?, holds_set, h, if_true, true_and]
      simp only [set, put, hu, if_true, index] at hi ⊢
      simp only [Array.getElem?_setIfInBounds, hi]
      by_cases he : x = u ∧ y = v
      · obtain ⟨rfl, rfl⟩ := he
        simpa [index] using hlt
      · simp [he]
    · have hne : ¬ (x = u ∧ y = v) := by
        rintro ⟨rfl, rfl⟩
        exact hu h
      simp [set, hu, hne]
  · simp [pixel?, h]

@[simp] theorem holds_fill (color : UInt32) :
    (image.fill color).Holds x y ↔ image.Holds x y :=
  Iff.rfl

theorem pixel?_fill (color : UInt32) :
    (image.fill color).pixel? x y = if image.Holds x y then some color else none := by
  by_cases h : image.Holds x y
  · have hf := (holds_fill color).mpr h
    rw [pixel?_of_holds hf hf.index_lt, if_pos h]
    simp [fill]
  · rw [if_neg h, pixel?_eq_none_iff]
    exact h

/-- An image is its sides and its pixels. -/
theorem ext_pixels {a b : Image} (width_eq : a.width = b.width) (height_eq : a.height = b.height)
    (pixels_eq : a.pixels = b.pixels) : a = b := by
  cases a
  cases b
  cases width_eq
  cases height_eq
  cases pixels_eq
  rfl

/-- Storage that is used again shows nothing of what it held. -/
@[simp] theorem resized_eq_blank (width height : Int) :
    image.resized width height = blank width height :=
  ext_pixels rfl rfl (refill_eq ..)

@[simp] theorem reallocate_eq_blank (previous : Option Image) (width height : Int) :
    reallocate previous width height = blank width height := by
  cases previous with
  | none => rfl
  | some image => exact resized_eq_blank width height

/-- Setting a row changes `count` of its pixels, from `u` on. -/
theorem pixel?_setRow (color : Int → UInt32) (v : Int) (count : Nat) (u : Int) (image : Image) :
    (setRow color v count u image).pixel? x y
      = if image.Holds x y ∧ y = v ∧ u ≤ x ∧ x < u + count then some (color x)
        else image.pixel? x y := by
  induction count generalizing u image with
  | zero =>
    rw [if_neg (by omega)]
    rfl
  | succ count ih =>
    rw [setRow, ih]
    simp only [holds_set, pixel?_set]
    by_cases hu : x = u
    · subst hu
      by_cases hv : image.Holds x y ∧ y = v
      · rw [if_neg (by omega), if_pos ⟨hv.1, rfl, hv.2⟩, if_pos ⟨hv.1, hv.2, by omega, by omega⟩]
      · rw [if_neg (by omega), if_neg fun h => hv ⟨h.1, h.2.2⟩, if_neg fun h => hv ⟨h.1, h.2.1⟩]
    · by_cases hr : u + 1 ≤ x ∧ x < u + 1 + count
      · by_cases hv : image.Holds x y ∧ y = v
        · rw [if_pos ⟨hv.1, hv.2, hr⟩, if_pos ⟨hv.1, hv.2, by omega, by omega⟩]
        · rw [if_neg fun h => hv ⟨h.1, h.2.1⟩, if_neg (by simp [hu]),
            if_neg fun h => hv ⟨h.1, h.2.1⟩]
      · rw [if_neg fun h => hr h.2.2, if_neg (by simp [hu]), if_neg fun h => hr ⟨by omega, by omega⟩]

@[simp] theorem width_setRow (color : Int → UInt32) (v : Int) (count : Nat) (u : Int)
    (image : Image) : (setRow color v count u image).width = image.width := by
  induction count generalizing u image with
  | zero => rfl
  | succ count ih => rw [setRow, ih, width_set]

@[simp] theorem height_setRow (color : Int → UInt32) (v : Int) (count : Nat) (u : Int)
    (image : Image) : (setRow color v count u image).height = image.height := by
  induction count generalizing u image with
  | zero => rfl
  | succ count ih => rw [setRow, ih, height_set]

@[simp] theorem holds_setRow (color : Int → UInt32) (v : Int) (count : Nat) (u : Int)
    (image : Image) : (setRow color v count u image).Holds x y ↔ image.Holds x y := by
  simp [Holds]

theorem pixel?_setRows (color : Int → Int → UInt32) (u : Int) (width count : Nat) (v : Int)
    (image : Image) :
    (setRows color u width count v image).pixel? x y
      = if image.Holds x y ∧ (u ≤ x ∧ x < u + width) ∧ v ≤ y ∧ y < v + count then some (color y x)
        else image.pixel? x y := by
  induction count generalizing v image with
  | zero =>
    rw [if_neg (by omega)]
    rfl
  | succ count ih =>
    rw [setRows, ih]
    simp only [holds_setRow, pixel?_setRow]
    by_cases hx : image.Holds x y ∧ u ≤ x ∧ x < u + width
    · obtain ⟨hh, hx⟩ := hx
      by_cases hv : y = v
      · subst hv
        rw [if_neg (by omega), if_pos ⟨hh, rfl, hx⟩, if_pos ⟨hh, hx, by omega, by omega⟩]
      · by_cases hr : v + 1 ≤ y ∧ y < v + 1 + count
        · rw [if_pos ⟨hh, hx, hr⟩, if_pos ⟨hh, hx, by omega, by omega⟩]
        · rw [if_neg fun h => hr h.2.2, if_neg fun h => hv h.2.1,
            if_neg fun h => hr ⟨by omega, by omega⟩]
    · rw [if_neg fun h => hx ⟨h.1, h.2.1⟩, if_neg fun h => hx ⟨h.1, h.2.2⟩,
        if_neg fun h => hx ⟨h.1, h.2.1⟩]

@[simp] theorem width_setRows (color : Int → Int → UInt32) (u : Int) (width count : Nat) (v : Int)
    (image : Image) : (setRows color u width count v image).width = image.width := by
  induction count generalizing v image with
  | zero => rfl
  | succ count ih => rw [setRows, ih, width_setRow]

@[simp] theorem height_setRows (color : Int → Int → UInt32) (u : Int) (width count : Nat) (v : Int)
    (image : Image) : (setRows color u width count v image).height = image.height := by
  induction count generalizing v image with
  | zero => rfl
  | succ count ih => rw [setRows, ih, height_setRow]

@[simp] theorem width_setArea (area : Rect) (color : Int → Int → UInt32) :
    (image.setArea area color).width = image.width :=
  width_setRows ..

@[simp] theorem height_setArea (area : Rect) (color : Int → Int → UInt32) :
    (image.setArea area color).height = image.height :=
  height_setRows ..

/-- Setting an area changes the pixels that it covers, and no other. -/
theorem pixel?_setArea (area : Rect) (color : Int → Int → UInt32) :
    (image.setArea area color).pixel? x y
      = if image.Holds x y ∧ area.Covers x y then some (color y x) else image.pixel? x y := by
  rw [setArea, pixel?_setRows]
  have : (area.x ≤ x ∧ x < area.x + (area.width.toNat : Int))
        ∧ area.y ≤ y ∧ y < area.y + (area.height.toNat : Int) ↔ area.Covers x y := by
    unfold Rect.Covers
    omega
  simp only [this]

@[simp] theorem width_copyTo (target : Image) : (image.copyTo target).width = target.width := by
  unfold copyTo
  split
  · rfl
  · exact width_setArea ..

@[simp] theorem height_copyTo (target : Image) : (image.copyTo target).height = target.height := by
  unfold copyTo
  split
  · rfl
  · exact height_setArea ..

theorem copyTo_eq_self {target : Image}
    (h : image.width = target.width ∧ image.height = target.height) :
    image.copyTo target = image := by
  rw [copyTo, dif_pos h]
  exact ext_pixels h.1.symm h.2.symm rfl

/-- Copying is pixel by pixel, whether or not the sides are the same. -/
theorem pixel?_copyTo (target : Image) :
    (image.copyTo target).pixel? x y
      = if image.Holds x y ∧ target.Holds x y then image.pixel? x y else target.pixel? x y := by
  by_cases h : image.width = target.width ∧ image.height = target.height
  · rw [copyTo_eq_self h]
    have hh : image.Holds x y ↔ target.Holds x y := by simp [Holds, h]
    split
    · rfl
    · rename_i hn
      rw [pixel?_eq_none_iff.mpr fun hi => hn ⟨hi, hh.mp hi⟩,
        pixel?_eq_none_iff.mpr fun ht => hn ⟨hh.mpr ht, ht⟩]
  · have hc : target.Holds x y ∧ Rect.Covers ⟨0, 0, min image.width target.width,
          min image.height target.height⟩ x y ↔ image.Holds x y ∧ target.Holds x y := by
      unfold Rect.Covers Holds
      simp only
      omega
    rw [copyTo, dif_neg h, pixel?_setArea]
    simp only [hc]
    by_cases hi : image.Holds x y ∧ target.Holds x y
    · rw [if_pos hi, if_pos hi, pixel?_of_holds hi.1 hi.1.index_lt]
      rfl
    · rw [if_neg hi, if_neg hi]

end Handset.Image
