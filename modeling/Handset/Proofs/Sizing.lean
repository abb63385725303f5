import Handset.Proofs.World

/-! Which sizes have a layout. A layout is a matter of few sums and products, and each of them is on
32 bits. -/

namespace Handset

namespace Floating

variable {format : Format} {x y : Floating format}

/-- Not below zero, as far as the sign tells. -/
def Unsigned : Floating format → Prop
  | .nan => True
  | .infinite s => s = false
  | .finite s _ _ => s = false

theorem unsigned_zero : (zero false : Floating format).Unsigned :=
  rfl

theorem unsigned_ite (p : Prop) [Decidable p] (hx : x.Unsigned) (hy : y.Unsigned) :
    (if p then x else y).Unsigned := by
  split
  · exact hx
  · exact hy

theorem unsigned_nearest (n d : Nat) (scale : Int) :
    (nearest false n d scale : Floating format).Unsigned := by
  by_cases none : n = 0
  · rw [nearest, if_pos none]
    exact unsigned_zero
  · rw [nearest, if_neg none]
    exact unsigned_ite _ rfl rfl

theorem unsigned_ofInt {n : Int} (nonneg : 0 ≤ n) : (ofInt n : Floating format).Unsigned := by
  have sign : decide (n < 0) = false := decide_eq_false (Int.not_lt.mpr nonneg)
  rw [ofInt, sign]
  exact unsigned_nearest ..

theorem Unsigned.mul (hx : x.Unsigned) (hy : y.Unsigned) : (x * y).Unsigned := by
  change (Floating.mul x y).Unsigned
  cases x with
  | nan => trivial
  | infinite s =>
    cases hx
    cases y with
    | nan => trivial
    | infinite t => cases hy; rfl
    | finite t n e =>
      cases hy
      simp only [Floating.mul]
      split <;> trivial
  | finite s m e =>
    cases hx
    cases y with
    | nan => trivial
    | infinite t =>
      cases hy
      simp only [Floating.mul]
      split <;> trivial
    | finite t n e' =>
      cases hy
      exact unsigned_nearest ..

theorem Unsigned.div (hx : x.Unsigned) (hy : y.Unsigned) : (x / y).Unsigned := by
  change (Floating.div x y).Unsigned
  cases x with
  | nan => trivial
  | infinite s =>
    cases hx
    cases y with
    | nan => trivial
    | infinite t => trivial
    | finite t n e => cases hy; rfl
  | finite s m e =>
    cases hx
    cases y with
    | nan => trivial
    | infinite t => cases hy; exact unsigned_zero
    | finite t n e' =>
      cases hy
      simp only [Floating.div]
      split
      · split <;> trivial
      · exact unsigned_nearest ..

/-- What is not at most zero has no sign. -/
theorem unsigned_of_above (above : x.atMost (ofInt 0) = false) : x.Unsigned := by
  cases x with
  | nan => trivial
  | infinite s =>
    cases s with
    | false => rfl
    | true => cases above
  | finite s m e =>
    cases s with
    | false => rfl
    | true =>
      have compared : (finite true m e).compare? (ofInt 0 : Floating format) =
          some (compare (signed true (m <<< (e - min e format.least).toNat)) (signed false
            (0 <<< (format.least - min e format.least).toNat))) := rfl
      have below : signed true (m <<< (e - min e format.least).toNat) ≤ 0 :=
        Int.neg_nonpos_of_nonneg (Int.natCast_nonneg _)
      have zero : signed false 0 = 0 := rfl
      rw [Nat.zero_shiftLeft, zero] at compared
      generalize signed true _ = n at compared below
      simp only [atMost, less, compared] at above
      cases Int.lt_or_eq_of_le below with
      | inl lt =>
        rw [Int.compare_eq_lt.mpr lt] at above
        cases above
      | inr eq =>
        rw [Int.compare_eq_eq.mpr eq] at above
        cases above

theorem saturate_nonneg {n : Int} (nonneg : 0 ≤ n) : 0 ≤ saturate n := by
  simp only [saturate, leastInt, greatestInt]
  omega

theorem Unsigned.truncate_nonneg (unsigned : x.Unsigned) : 0 ≤ x.truncate := by
  cases x with
  | nan => exact Int.le_refl 0
  | infinite s =>
    cases unsigned
    exact Int.le_of_lt (by decide : 0 < greatestInt)
  | finite s m e =>
    cases unsigned
    exact saturate_nonneg (Int.natCast_nonneg _)

end Floating

/-- Of the numbers that are not negative, the greatest integer and all below it are on 32 bits. -/
theorem Checked.exists_result_iff {op : Arith} {n : Int} (nonneg : 0 ≤ n) :
    (∃ m, result op n = .ok m) ↔ n ≤ greatestInt := by
  have least : leastInt ≤ n := Int.le_trans (by decide) nonneg
  constructor
  · intro ok
    obtain ⟨m, ok⟩ := ok
    unfold result at ok
    split at ok
    · rename_i range
      exact range.2
    · cases ok
  · intro le
    exact ⟨n, result_of_mem ⟨least, le⟩⟩

namespace Keyboard

variable {keyboard : Keyboard} {width : Int}

/-- The pixels to keep free below the screen, whatever their number. -/
def reserve (keyboard : Keyboard) (displayWidth : Int) : Int :=
  let divisor := keyboard.keyWidthRatio * keyboard.keyHeightRatio
  let rows : Single := .ofInt keyboard.rows
  let width : Single := .ofInt displayWidth
  if divisor.atMost (.ofInt 0) then 0 else (rows * (width / divisor)).truncate + 1

theorem reserve_nonneg (keyboard : Keyboard) (nonneg : 0 ≤ width) : 0 ≤ keyboard.reserve width := by
  unfold reserve
  dsimp only
  split
  · exact Int.le_refl 0
  · rename_i above
    have rows : (Floating.ofInt keyboard.rows : Single).Unsigned :=
      Floating.unsigned_ofInt (Int.natCast_nonneg _)
    have divisor := Floating.unsigned_of_above (Bool.eq_false_iff.mpr above)
    have keys := (rows.mul ((Floating.unsigned_ofInt nonneg).div divisor)).truncate_nonneg
    exact Int.le_trans keys (Int.le_add_one (Int.le_refl _))

theorem reservedHeight_eq (keyboard : Keyboard) (width : Int) :
    keyboard.reservedHeight width = Checked.result .add (keyboard.reserve width) := by
  unfold reserve reservedHeight
  dsimp only
  split
  · rfl
  · rfl

end Keyboard

theorem Except.map_eq_ok_iff {ε α β : Type} {result : Except ε α} {f : α → β} {b : β} :
    result.map f = .ok b ↔ ∃ a, result = .ok a ∧ f a = b := by
  cases result with
  | error fault => simp [Except.map]
  | ok a => simp [Except.map]

theorem Except.exists_map_iff {ε α β : Type} {result : Except ε α} {f : α → β} :
    (∃ b, result.map f = .ok b) ↔ ∃ a, result = .ok a := by
  cases result with
  | error fault => simp [Except.map]
  | ok a => simp [Except.map]

namespace Sizing

variable {input : Sizing} {width height : Int}

/-- A side that follows the other one is found by way of a product. -/
structure Multiplies (input : Sizing) (width height : Int) : Prop where
  wide : input.virtualWidth < 0 → 0 ≤ input.virtualHeight →
    width * input.virtualHeight ≤ greatestInt
  high : 0 ≤ input.virtualWidth → input.virtualHeight < 0 →
    height * input.virtualWidth ≤ greatestInt

theorem virtualSize_of_wide (wide : input.virtualWidth < 0) (high : 0 ≤ input.virtualHeight) :
    input.virtualSize width height =
      (Checked.mul width input.virtualHeight).map fun area =>
        (area.tdiv height, input.virtualHeight) := by
  simp only [virtualSize, wide, Int.not_lt.mpr high, and_false, if_true, if_false]
  cases Checked.mul width input.virtualHeight <;> rfl

theorem virtualSize_of_high (wide : 0 ≤ input.virtualWidth) (high : input.virtualHeight < 0) :
    input.virtualSize width height =
      (Checked.mul height input.virtualWidth).map fun area =>
        (input.virtualWidth, area.tdiv width) := by
  simp only [virtualSize, Int.not_lt.mpr wide, high, false_and, if_true, if_false]
  cases Checked.mul height input.virtualWidth <;> rfl

theorem exists_virtualSize_iff (width_nonneg : 0 ≤ width) (height_nonneg : 0 ≤ height) :
    (∃ sides, input.virtualSize width height = .ok sides) ↔ input.Multiplies width height := by
  cases Int.lt_or_le input.virtualWidth 0 with
  | inl wide =>
    have not_wide := Int.not_le.mpr wide
    cases Int.lt_or_le input.virtualHeight 0 with
    | inl high =>
      have sides : input.virtualSize width height = .ok (width, height) := by
        simp only [virtualSize, wide, high, and_self, if_true]
        rfl
      have not_high := Int.not_le.mpr high
      exact iff_of_true ⟨_, sides⟩ ⟨fun _ h => absurd h not_high, fun h => absurd h not_wide⟩
    | inr high =>
      rw [virtualSize_of_wide wide high, Except.exists_map_iff, Checked.mul,
        Checked.exists_result_iff (Int.mul_nonneg width_nonneg high)]
      exact ⟨fun le => ⟨fun _ _ => le, fun h => absurd h not_wide⟩, fun h => h.wide wide high⟩
  | inr wide =>
    have not_wide := Int.not_lt.mpr wide
    cases Int.lt_or_le input.virtualHeight 0 with
    | inl high =>
      rw [virtualSize_of_high wide high, Except.exists_map_iff, Checked.mul,
        Checked.exists_result_iff (Int.mul_nonneg height_nonneg wide)]
      exact ⟨fun le => ⟨fun h => absurd h not_wide, fun _ _ => le⟩, fun h => h.high wide high⟩
    | inr high =>
      have not_high := Int.not_lt.mpr high
      have sides : input.virtualSize width height =
          .ok (input.virtualWidth, input.virtualHeight) := by
        simp only [virtualSize, not_wide, not_high, and_self, if_false]
        rfl
      exact iff_of_true ⟨_, sides⟩ ⟨fun h => absurd h not_wide, fun _ h => absurd h not_high⟩

/-- The part of the display that the screen may take. -/
def room (input : Sizing) : Int :=
  max (max input.displayHeight 1 - input.reservedHeight) 1

theorem exists_layout_iff (range : 0 ≤ input.reservedHeight ∧ input.reservedHeight ≤ greatestInt)
    (high : input.displayHeight ≤ greatestInt) :
    (∃ layout, input.layout = .ok layout) ↔
      input.Multiplies (max input.displayWidth 1) input.room := by
  have reserved : Checked.sub (max input.displayHeight 1) input.reservedHeight =
      .ok (max input.displayHeight 1 - input.reservedHeight) := by
    apply Checked.result_of_mem
    simp only [leastInt, greatestInt] at range high ⊢
    omega
  rw [← exists_virtualSize_iff (by omega) (by simp only [room]; omega)]
  constructor
  · intro computed
    obtain ⟨layout, computed⟩ := computed
    obtain ⟨rest, sub, computed⟩ := Checked.bind_eq_ok.mp computed
    obtain ⟨sides, virtual, -⟩ := Checked.bind_eq_ok.mp computed
    rw [reserved] at sub
    cases sub
    exact ⟨sides, virtual⟩
  · intro virtual
    obtain ⟨sides, virtual⟩ := virtual
    exact ⟨_, Checked.bind_eq_ok.mpr ⟨_, reserved, Checked.bind_eq_ok.mpr ⟨sides, virtual, rfl⟩⟩⟩

end Sizing

namespace Settings

variable {settings : Settings}

/-- The pixels to keep free for the keyboard, whatever their number. -/
def reserve (settings : Settings) : Int :=
  match settings.keyboard with
  | some keyboard => keyboard.reserve settings.displayWidth
  | none => 0

theorem reserve_nonneg (width : 0 ≤ settings.displayWidth) : 0 ≤ settings.reserve := by
  unfold reserve
  split
  · exact Keyboard.reserve_nonneg _ width
  · exact Int.le_refl 0

/-- What the layout depends on, as soon as the pixels to keep free are counted. -/
def sizingBeside (settings : Settings) (reservedHeight : Int) : Sizing where
  displayWidth := settings.displayWidth
  displayHeight := settings.displayHeight
  virtualWidth := settings.virtualWidth
  virtualHeight := settings.virtualHeight
  fullscreen := settings.fullscreen
  scaleToFit := settings.scaleToFit
  keepAspectRatio := settings.keepAspectRatio
  scaleRatio := settings.scaleRatio
  reservedHeight := reservedHeight

theorem sizing_eq (settings : Settings) :
    settings.sizing = (Checked.result .add settings.reserve).map settings.sizingBeside := by
  unfold sizing reserve
  cases settings.keyboard with
  | none => rfl
  | some keyboard =>
    dsimp only
    rw [Keyboard.reservedHeight_eq]
    cases Checked.result .add (keyboard.reserve settings.displayWidth) <;> rfl

/-- The sum and the products of a layout are on 32 bits: the pixels kept free for the keyboard, and
the area that gives one side of the screen where only the other is asked for. -/
structure Computes (settings : Settings) : Prop where
  reserve : settings.reserve ≤ greatestInt
  wide : settings.virtualWidth < 0 → 0 ≤ settings.virtualHeight →
    settings.displayWidth * settings.virtualHeight ≤ greatestInt
  high : 0 ≤ settings.virtualWidth → settings.virtualHeight < 0 →
    max (settings.displayHeight - settings.reserve) 1 * settings.virtualWidth ≤ greatestInt

instance (settings : Settings) : Decidable settings.Computes :=
  decidable_of_iff (settings.reserve ≤ greatestInt ∧
    (settings.virtualWidth < 0 → 0 ≤ settings.virtualHeight →
      settings.displayWidth * settings.virtualHeight ≤ greatestInt) ∧
    (0 ≤ settings.virtualWidth → settings.virtualHeight < 0 →
      max (settings.displayHeight - settings.reserve) 1 * settings.virtualWidth ≤ greatestInt))
    ⟨fun h => ⟨h.1, h.2.1, h.2.2⟩, fun h => ⟨h.reserve, h.wide, h.high⟩⟩

theorem multiplies_iff (width : 0 < settings.displayWidth) (height : 0 < settings.displayHeight) :
    (settings.sizingBeside settings.reserve).Multiplies (max settings.displayWidth 1)
        (settings.sizingBeside settings.reserve).room ↔
      (settings.virtualWidth < 0 → 0 ≤ settings.virtualHeight →
        settings.displayWidth * settings.virtualHeight ≤ greatestInt) ∧
      (0 ≤ settings.virtualWidth → settings.virtualHeight < 0 →
        max (settings.displayHeight - settings.reserve) 1 * settings.virtualWidth ≤
          greatestInt) := by
  have room : (settings.sizingBeside settings.reserve).room =
      max (settings.displayHeight - settings.reserve) 1 := by
    simp only [Sizing.room, sizingBeside,
      Int.max_eq_left (show 1 ≤ settings.displayHeight from height)]
  rw [room, Int.max_eq_left (show 1 ≤ settings.displayWidth from width)]
  exact ⟨fun h => ⟨h.wide, h.high⟩, fun h => ⟨h.1, h.2⟩⟩

/-- There is a layout exactly if all that is computed for it stays on 32 bits. -/
theorem exists_layout_iff (width : 0 < settings.displayWidth)
    (height : 0 < settings.displayHeight ∧ settings.displayHeight ≤ greatestInt) :
    (∃ layout, settings.layout = .ok layout) ↔ settings.Computes := by
  have nonneg := reserve_nonneg (Int.le_of_lt width)
  have products := multiplies_iff width height.1
  constructor
  · intro computed
    obtain ⟨layout, computed⟩ := computed
    obtain ⟨input, sized, computed⟩ := Checked.bind_eq_ok.mp computed
    rw [sizing_eq] at sized
    have le := (Checked.exists_result_iff nonneg).mp (Except.exists_map_iff.mp ⟨input, sized⟩)
    rw [Checked.result_of_mem ⟨Int.le_trans (by decide) nonneg, le⟩] at sized
    cases sized
    have multiplies := (Sizing.exists_layout_iff ⟨nonneg, le⟩ height.2).mp ⟨layout, computed⟩
    exact ⟨le, (products.mp multiplies).1, (products.mp multiplies).2⟩
  · intro computes
    have le := computes.reserve
    have multiplies := products.mpr ⟨computes.wide, computes.high⟩
    obtain ⟨layout, computed⟩ := (Sizing.exists_layout_iff ⟨nonneg, le⟩ height.2).mpr multiplies
    refine ⟨layout, Checked.bind_eq_ok.mpr ⟨_, ?_, computed⟩⟩
    rw [sizing_eq, Checked.result_of_mem ⟨Int.le_trans (by decide) nonneg, le⟩]
    rfl

end Settings

namespace Canvas

theorem exists_create_iff {config : Config} {kind : DisplayKind} {width height : Int} {now : Nat} :
    (∃ canvas, create config kind width height now = .ok canvas) ↔
      ∃ layout, (Settings.ofConfig config width height).layout = .ok layout := by
  constructor
  · intro created
    obtain ⟨canvas, created⟩ := created
    obtain ⟨layout, computed, -⟩ := Checked.bind_eq_ok.mp created
    exact ⟨layout, computed⟩
  · intro computed
    obtain ⟨layout, computed⟩ := computed
    exact ⟨_, Checked.bind_eq_ok.mpr ⟨layout, computed, rfl⟩⟩

theorem exists_updateSize_iff {canvas : Canvas} :
    (∃ updated, canvas.updateSize = .ok updated) ↔
      ∃ layout, canvas.settings.layout = .ok layout := by
  constructor
  · intro done
    obtain ⟨updated, done⟩ := done
    obtain ⟨layout, computed, -⟩ := Checked.bind_eq_ok.mp done
    exact ⟨layout, computed⟩
  · intro computed
    obtain ⟨layout, computed⟩ := computed
    exact ⟨_, Checked.bind_eq_ok.mpr ⟨layout, computed, rfl⟩⟩

/-- On a display of any size a canvas can be made exactly if what is computed for its layout stays
on 32 bits, and it follows a display of another size under the same condition. -/
theorem sized_iff {width height : Int} (wide : 0 < width)
    (high : 0 < height ∧ height ≤ greatestInt) :
    (∀ config kind now, (∃ canvas, create config kind width height now = .ok canvas) ↔
      (Settings.ofConfig config width height).Computes) ∧
    ∀ canvas : Canvas, (∃ updated, (canvas.setDisplaySize width height).updateSize = .ok updated) ↔
      (canvas.setDisplaySize width height).settings.Computes := by
  constructor
  · intro config kind now
    rw [exists_create_iff]
    exact Settings.exists_layout_iff wide high
  · intro canvas
    rw [exists_updateSize_iff]
    exact Settings.exists_layout_iff wide high

/-- A million rows of keys, each a hundred times as wide as the display. -/
def hugeKeys : Config where
  keyboard := some {
    rows := 1000000, keyWidthRatio := .nearest false 1 100 0, keyHeightRatio := .ofInt 1 }

theorem sized_iff_hugeKeys :
    (∃ canvas, create {} .headless 24 32 0 = .ok canvas) ∧
    (∃ updated, (pixelCanvas.setDisplaySize 24 32).updateSize = .ok updated) ∧
    ¬ ∃ canvas, create hugeKeys .headless 24 32 0 = .ok canvas := by
  have sized := @sized_iff 24 32 (by decide) (by decide)
  refine ⟨(sized.1 {} .headless 0).mpr ?_, (sized.2 pixelCanvas).mpr ?_, fun created => ?_⟩
  · decide +kernel
  · decide +kernel
  · have unbounded : ¬ (Settings.ofConfig hugeKeys 24 32).Computes := by decide +kernel
    exact unbounded ((sized.1 hugeKeys .headless 0).mp created)

/-- Huge keys are accepted, and leave a canvas without a layout. -/
theorem hugeKeys_unsized :
    ¬ ∀ config : Config, config.validate = .ok () → ∀ width height : Int,
      (0 < width ∧ width ≤ greatestInt) → (0 < height ∧ height ≤ greatestInt) →
      ∃ canvas, create config .headless width height 0 = .ok canvas := by
  intro sized
  obtain ⟨canvas, created⟩ := sized hugeKeys rfl 24 32 (by decide) (by decide)
  have overflow : create hugeKeys .headless 24 32 0 = .error (.overflow .add) := rfl
  rw [overflow] at created
  cases created

end Canvas

end Handset
