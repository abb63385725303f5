import Handset.Proofs.Fitting
import Handset.Proofs.Mirror
import Handset.Proofs.Placement

/-! Touches. A pixel of the display is moved to the virtual screen as a number, which is rounded to the
nearest pixel. From the last pixels of a screen that is shown enlarged, that is the pixel behind the
last of the virtual screen. -/

namespace Handset

/-- One coordinate of a touch, on the virtual screen. -/
def axis (pixel offset extent shown : Int) : Single :=
  (.ofInt pixel - .ofInt offset) * .ofInt extent / .ofInt (max shown 1)

/-- The coordinate as a number. -/
def landing (pixel offset extent shown : ℕ) : ℚ :=
  single (single (single (single pixel - single offset) * single extent) / single shown)

section Axis

variable {pixel pixel' offset extent shown : ℕ}

theorem single_le_single (le : offset ≤ pixel) : single offset ≤ single pixel :=
  single_mono (Nat.cast_nonneg _) (Nat.cast_le.mpr le)

theorem means_axis (le : offset ≤ pixel) (range : pixel ≤ 2147483647) (he : IsLength extent)
    (hs : IsLength shown) : (axis pixel offset extent shown).Means
      (landing pixel offset extent shown) := by
  have apart := single_le_single le
  have far : single pixel - single offset ≤ 2 ^ 31 := by
    linarith [single_le range, single_nonneg offset]
  have moved := (means_single range).sub Format.whole_single (means_single (le.trans range)) apart
    (lt_limit_single (by linarith))
  have far' : single (single pixel - single offset) ≤ 2 ^ 31 := by
    exact_mod_cast single_le_zpow (e := 31) (by decide) (by linarith) (by exact_mod_cast far)
  have area : single (single pixel - single offset) * single extent ≤ 2 ^ 62 := by
    nlinarith [he.le, single_nonneg (single pixel - single offset), single_nonneg extent]
  have scaled := moved.mul Format.whole_single he.means (lt_limit_single (by linarith))
  have area' : single (single (single pixel - single offset) * single extent) ≤ 2 ^ 62 := by
    exact_mod_cast single_le_zpow (e := 62) (by decide)
      (mul_nonneg (single_nonneg _) (single_nonneg _)) (by exact_mod_cast area)
  have above := hs.one_le
  have quotient := scaled.div Format.whole_single hs.means (by linarith)
    (lt_limit_single (((div_le_self (single_nonneg _) above).trans area').trans (by norm_num)))
  have same : max (shown : ℤ) 1 = shown := max_eq_left (by exact_mod_cast hs.1)
  rw [axis, same]
  exact quotient

theorem landing_mono (le : offset ≤ pixel) (le' : pixel ≤ pixel') (extent shown : ℕ) :
    landing pixel offset extent shown ≤ landing pixel' offset extent shown := by
  have apart := single_le_single le
  have further := single_le_single le'
  refine single_mono (div_nonneg (single_nonneg _) (single_nonneg _)) ?_
  refine div_le_div_of_nonneg_right (single_mono ?_ ?_) (single_nonneg _)
  · exact mul_nonneg (single_nonneg _) (single_nonneg _)
  · refine mul_le_mul_of_nonneg_right (single_mono ?_ ?_) (single_nonneg _)
    · exact sub_nonneg.mpr apart
    · linarith

/-- Where all numbers on the way are whole and short, the quotient alone is rounded. -/
theorem landing_eq (le : offset ≤ pixel) (short : pixel ≤ 2 ^ 24) (inside : pixel < offset + shown)
    (he : 1 ≤ extent) (small : shown * extent ≤ 2 ^ 23) :
    landing pixel offset extent shown = single ((pixel - offset : ℕ) * extent / shown) := by
  have part : (pixel - offset) * extent ≤ 2 ^ 24 := by
    have less : pixel - offset ≤ shown := by omega
    calc (pixel - offset) * extent ≤ shown * extent := Nat.mul_le_mul_right _ less
      _ ≤ 2 ^ 24 := small.trans (by decide)
  have across : pixel - offset ≤ 2 ^ 24 := by omega
  have wide : extent ≤ 2 ^ 24 := by nlinarith
  have wide' : shown ≤ 2 ^ 24 := by nlinarith
  rw [landing, single_natCast short, single_natCast (le.trans short), ← Nat.cast_sub le,
    single_natCast across, single_natCast wide, single_natCast wide', ← Nat.cast_mul,
    single_natCast part]

/-- The middle between two pixels is a number that is not rounded. -/
theorem holds_middle {n : ℕ} (one : 1 ≤ n) (short : n ≤ 2 ^ 23) :
    Format.single.Holds (n - 1 / 2) := by
  refine ⟨2 * n - 1, -1, ?_, by decide, ?_⟩
  · have precise : Format.single.precision = 24 := rfl
    rw [precise]
    omega
  · rw [Nat.cast_sub (by omega)]
    push_cast
    ring

/-- What is less than the middle by more than a rounding makes of it is rounded to less. -/
theorem single_lt_middle {n : ℕ} {q gap : ℚ} (one : 1 ≤ n) (short : n ≤ 2 ^ 23)
    (full : 2 ^ (-126 : ℤ) ≤ q) (apart : q ≤ n - 1 / 2 - gap)
    (lost : ((n : ℚ) - 1 / 2) / 2 ^ 24 < gap) : single q < n - 1 / 2 := by
  have one' : (1 : ℚ) ≤ n := by exact_mod_cast one
  have nonneg : 0 ≤ q := le_trans (by positivity) full
  have near := (near_single full).high
  have most := (holds_middle one short).round_le (by decide) nonneg (by linarith)
  rw [pow_one, Format.kept, show Format.single.precision = 24 from rfl] at near
  linarith

/-- The quotient is rounded, but not over the middle between two pixels. -/
theorem single_div_lt_iff {i : ℕ} (he : 1 ≤ extent) (hs : 1 ≤ shown)
    (small : shown * extent ≤ 2 ^ 23) :
    single (i * extent / shown) < extent - 1 / 2 ↔ 2 * i * extent + shown < 2 * extent * shown := by
  have positive : (0 : ℚ) < shown := by exact_mod_cast hs
  have one : (1 : ℚ) ≤ extent := by exact_mod_cast he
  have small' : (shown * extent : ℚ) ≤ 2 ^ 23 := by exact_mod_cast small
  have short : extent ≤ 2 ^ 23 := (Nat.le_mul_of_pos_left extent hs).trans small
  constructor
  · intro below
    by_contra passed
    have passed' : (2 * extent * shown : ℚ) ≤ 2 * i * extent + shown := by
      exact_mod_cast not_lt.mp passed
    have reached : (extent - 1 / 2 : ℚ) ≤ i * extent / shown := by
      rw [le_div_iff₀ positive]
      linarith
    have middle := (holds_middle he short).le_round (by decide) (by linarith) reached
    exact absurd below (not_lt.mpr middle)
  · intro inside
    have inside' : (2 * i * extent + shown + 1 : ℚ) ≤ 2 * extent * shown := by exact_mod_cast inside
    rcases Nat.eq_zero_or_pos i with rfl | some
    · rw [Nat.cast_zero, zero_mul, zero_div, show single 0 = 0 from Format.round_zero _]
      linarith
    have full : (2 : ℚ) ^ (-126 : ℤ) ≤ i * extent / shown := by
      have some' : (1 : ℚ) ≤ i := by exact_mod_cast some
      rw [le_div_iff₀ positive]
      norm_num
      nlinarith
    have apart : (i * extent / shown : ℚ) ≤ extent - 1 / 2 - 1 / (2 * shown) := by
      have part : 1 / (2 * shown) * (shown : ℚ) = 1 / 2 := by field_simp
      rw [div_le_iff₀ positive]
      linarith
    refine single_lt_middle he short full apart ?_
    rw [div_lt_div_iff₀ (by norm_num) (by positivity)]
    linarith

end Axis

/-- One coordinate of a touch in pixels, as the application hears of it. -/
def coordinate (pixel offset extent shown : Int) : Int :=
  (axis pixel offset extent shown).round

/-- A pixel of the display at which some side is shown. -/
structure Shows (offset extent shown pixel : Int) : Prop where
  origin : 0 ≤ offset
  first : offset ≤ pixel
  last : pixel < offset + shown
  range : pixel ≤ greatestInt
  extent : 1 ≤ extent ∧ extent ≤ greatestInt
  shown : 1 ≤ shown ∧ shown ≤ greatestInt

namespace Shows

variable {offset extent shown pixel pixel' : Int}

theorem exists_landing (shows : Shows offset extent shown pixel) :
    ∃ p o e s : ℕ, (pixel = p ∧ offset = o ∧ extent = e ∧ shown = s) ∧
      coordinate pixel offset extent shown = min ⌊landing p o e s + 1 / 2⌋ greatestInt := by
  obtain ⟨origin, first, last, range, wide, wide'⟩ := shows
  lift offset to ℕ using origin
  lift pixel to ℕ using by omega
  lift extent to ℕ using by omega
  lift shown to ℕ using by omega
  rw [← isLength_iff] at wide wide'
  have means := means_axis (by exact_mod_cast first) (by unfold greatestInt at range; omega) wide
    wide'
  exact ⟨pixel, offset, extent, shown, ⟨rfl, rfl, rfl, rfl⟩, means.round_eq⟩

theorem coordinate_nonneg (shows : Shows offset extent shown pixel) :
    0 ≤ coordinate pixel offset extent shown := by
  obtain ⟨p, o, e, s, -, rounded⟩ := shows.exists_landing
  have nonneg : (0 : ℚ) ≤ landing p o e s + 1 / 2 := add_nonneg (single_nonneg _) (by norm_num)
  rw [rounded]
  exact le_min (Int.floor_nonneg.mpr nonneg) (by decide)

theorem coordinate_mono (shows : Shows offset extent shown pixel)
    (shows' : Shows offset extent shown pixel') (le : pixel ≤ pixel') :
    coordinate pixel offset extent shown ≤ coordinate pixel' offset extent shown := by
  obtain ⟨p, o, e, s, ⟨rfl, rfl, rfl, rfl⟩, rounded⟩ := shows.exists_landing
  obtain ⟨p', o', e', s', ⟨rfl, offset, extent, shown⟩, rounded'⟩ := shows'.exists_landing
  obtain rfl := Int.natCast_inj.mp offset
  obtain rfl := Int.natCast_inj.mp extent
  obtain rfl := Int.natCast_inj.mp shown
  have first := shows.first
  have further := landing_mono (by exact_mod_cast first) (by exact_mod_cast le) e s
  rw [rounded, rounded']
  exact min_le_min_right _ (Int.floor_mono (by linarith))

theorem coordinate_lt_iff (shows : Shows offset extent shown pixel) (short : pixel ≤ 2 ^ 24)
    (small : shown * extent ≤ 2 ^ 23) :
    coordinate pixel offset extent shown < extent ↔
      2 * (pixel - offset) * extent + shown < 2 * extent * shown := by
  obtain ⟨p, o, e, s, ⟨rfl, rfl, rfl, rfl⟩, rounded⟩ := shows.exists_landing
  obtain ⟨-, first, last, -, wide, wide'⟩ := shows
  have first' : o ≤ p := by exact_mod_cast first
  have small' : s * e ≤ 2 ^ 23 := by exact_mod_cast small
  have within : min ⌊landing p o e s + 1 / 2⌋ greatestInt < (e : ℤ) ↔
      landing p o e s < (e : ℚ) - 1 / 2 := by
    have floor : ⌊landing p o e s + 1 / 2⌋ < (e : ℤ) ↔ landing p o e s < (e : ℚ) - 1 / 2 := by
      rw [Int.floor_lt, lt_sub_iff_add_lt, Int.cast_natCast]
    rw [← floor]
    omega
  rw [rounded, within, landing_eq first' (by omega) (by omega) (by omega) small',
    single_div_lt_iff (by omega) (by omega) small']
  zify [first']

end Shows

theorem Floating.round_le {format : Format} (x : Floating format) : x.round ≤ greatestInt := by
  have least : leastInt ≤ greatestInt := by decide
  cases x with
  | nan => exact (show (0 : Int) ≤ greatestInt by decide)
  | infinite s =>
    cases s with
    | false => exact le_refl greatestInt
    | true => exact least
  | finite s m e => exact max_le least (min_le_right _ _)

namespace Sizing

variable {input : Sizing} {layout : ScreenLayout} {px py : Int}

/-- The sizes that a layout depends on are on 32 bits. -/
structure Bounded (input : Sizing) : Prop where
  displayWidth : input.displayWidth ≤ greatestInt
  displayHeight : input.displayHeight ≤ greatestInt
  virtualWidth : input.virtualWidth ≤ greatestInt
  virtualHeight : input.virtualHeight ≤ greatestInt

/-- A side that is a part of an area is on 32 bits as the area is. -/
theorem tdiv_le_of_mul {a b area : Int} (computed : Checked.mul a b = .ok area) (ha : 1 ≤ a)
    (hb : 0 ≤ b) (length : Int) : area.tdiv length ≤ greatestInt := by
  have range := Checked.le_of_result computed
  obtain rfl := Checked.eq_of_result computed
  have nonneg : 0 ≤ a * b := Int.mul_nonneg (by omega) hb
  exact (Int.tdiv_le_self length nonneg).trans range

theorem Bounded.virtualSize_le (bounded : input.Bounded) {width height : Int} {size : Int × Int}
    (wide : 1 ≤ width ∧ width ≤ greatestInt) (high : 1 ≤ height ∧ height ≤ greatestInt)
    (computed : input.virtualSize width height = .ok size) :
    size.1 ≤ greatestInt ∧ size.2 ≤ greatestInt := by
  rcases Int.lt_or_le input.virtualWidth 0 with across | across <;>
    rcases Int.lt_or_le input.virtualHeight 0 with down | down
  · simp only [virtualSize, across, down, and_self, if_true] at computed
    cases computed
    exact ⟨wide.2, high.2⟩
  · rw [virtualSize_of_wide across down] at computed
    obtain ⟨area, product, rfl⟩ := Except.map_eq_ok_iff.mp computed
    exact ⟨tdiv_le_of_mul product wide.1 down height, bounded.virtualHeight⟩
  · rw [virtualSize_of_high across down] at computed
    obtain ⟨area, product, rfl⟩ := Except.map_eq_ok_iff.mp computed
    exact ⟨bounded.virtualWidth, tdiv_le_of_mul product high.1 across width⟩
  · simp only [virtualSize, Int.not_lt.mpr across, Int.not_lt.mpr down, and_self, if_false]
      at computed
    cases computed
    exact ⟨bounded.virtualWidth, bounded.virtualHeight⟩

/-- The virtual screen is on 32 bits as well. -/
theorem Bounded.layout_le (bounded : input.Bounded) (computed : input.layout = .ok layout) :
    layout.width ≤ greatestInt ∧ layout.height ≤ greatestInt := by
  obtain ⟨rest, beside, computed⟩ := Checked.bind_eq_ok.mp computed
  obtain ⟨sides, virtual, computed⟩ := Checked.bind_eq_ok.mp computed
  have one : (1 : Int) ≤ greatestInt := by decide
  have room := Checked.le_of_result beside
  have size := bounded.virtualSize_le ⟨le_max_right .., max_le bounded.displayWidth one⟩
    ⟨le_max_right .., max_le room one⟩ virtual
  cases computed
  refine ⟨max_le size.1 one, ?_⟩
  dsimp only
  split_ifs
  · exact max_le size.2 one
  · exact max_le (Floating.round_le _) one

end Sizing

namespace ScreenLayout

variable {layout : ScreenLayout} {px py : Int}

/-- The pixel of the virtual screen that is touched at a pixel of the display. -/
def touch (layout : ScreenLayout) (px py : Int) : Int × Int :=
  let (x, y) := layout.toVirtual (.ofInt px) (.ofInt py)
  (x.round, y.round)

/-- The virtual screen has such a pixel. -/
def Has (layout : ScreenLayout) (x y : Int) : Prop :=
  (0 ≤ x ∧ x < layout.width) ∧ 0 ≤ y ∧ y < layout.height

instance (layout : ScreenLayout) (x y : Int) : Decidable (layout.Has x y) :=
  inferInstanceAs (Decidable (_ ∧ _))

theorem touch_eq (layout : ScreenLayout) (px py : Int) : layout.touch px py =
    (coordinate px layout.placement.x layout.width layout.placement.width,
      coordinate py layout.placement.y layout.height layout.placement.height) :=
  rfl

theorem Placed.contains_iff (placed : layout.Placed) (range : layout.InRange) :
    layout.placement.contains px py = .ok true ↔ layout.placement.Covers px py := by
  refine ⟨fun inside => (Rect.contains_eq_ok inside).mp rfl, fun covers => ?_⟩
  obtain ⟨left, right, top, bottom⟩ := covers
  have after : ¬ (px < layout.placement.x ∨ py < layout.placement.y) :=
    not_or.mpr ⟨Int.not_lt.mpr left, Int.not_lt.mpr top⟩
  simp only [Rect.contains, after, if_false, placed.right_placement range,
    placed.bottom_placement range, bind, Except.bind, Int.not_le.mpr right, pure, Except.pure,
    bottom, decide_true]

/-- The layout and the sides of its screen are on 32 bits. -/
structure Measured (layout : ScreenLayout) : Prop extends layout.Placed, layout.InRange where
  across : 1 ≤ layout.width ∧ layout.width ≤ greatestInt
  down : 1 ≤ layout.height ∧ layout.height ≤ greatestInt

theorem Measured.shows (measured : layout.Measured) (covers : layout.placement.Covers px py) :
    Shows layout.placement.x layout.width layout.placement.width px ∧
      Shows layout.placement.y layout.height layout.placement.height py := by
  obtain ⟨⟨left, top, wide, high, right, bottom⟩, ⟨range, range'⟩, across, down⟩ := measured
  obtain ⟨first, last, first', last'⟩ := covers
  constructor <;> constructor <;> omega

/-- The pixel at the lower right corner of the screen. -/
def corner (layout : ScreenLayout) : Int × Int :=
  (layout.placement.x + layout.placement.width - 1, layout.placement.y + layout.placement.height - 1)

theorem Measured.covers_corner (measured : layout.Measured) :
    layout.placement.Covers layout.corner.1 layout.corner.2 := by
  have wide := measured.wide
  have high := measured.high
  unfold Rect.Covers corner
  omega

theorem Measured.touch_nonneg (measured : layout.Measured) (covers : layout.placement.Covers px py) :
    0 ≤ (layout.touch px py).1 ∧ 0 ≤ (layout.touch px py).2 :=
  ⟨(measured.shows covers).1.coordinate_nonneg, (measured.shows covers).2.coordinate_nonneg⟩

theorem Measured.has_touch_iff (measured : layout.Measured)
    (covers : layout.placement.Covers px py) :
    layout.Has (layout.touch px py).1 (layout.touch px py).2 ↔
      (layout.touch px py).1 < layout.width ∧ (layout.touch px py).2 < layout.height := by
  have nonneg := measured.touch_nonneg covers
  unfold Has
  omega

/-- If the virtual screen has the pixel that is touched at the corner, it has all of them. -/
theorem Measured.has_touch_of_corner (measured : layout.Measured)
    (has : layout.Has (layout.touch layout.corner.1 layout.corner.2).1
      (layout.touch layout.corner.1 layout.corner.2).2)
    (covers : layout.placement.Covers px py) :
    layout.Has (layout.touch px py).1 (layout.touch px py).2 := by
  obtain ⟨first, second⟩ := measured.shows covers
  obtain ⟨first', second'⟩ := measured.shows measured.covers_corner
  obtain ⟨⟨-, across⟩, -, down⟩ := has
  have nonneg := measured.touch_nonneg covers
  obtain ⟨-, right, -, bottom⟩ := covers
  have before := first.coordinate_mono first' (by unfold corner; omega)
  have above := second.coordinate_mono second' (by unfold corner; omega)
  exact ⟨⟨nonneg.1, before.trans_lt across⟩, nonneg.2, above.trans_lt down⟩

/-- As long as all products are short, a touch is as exact arithmetic has it. -/
theorem Measured.has_touch_iff_of_short (measured : layout.Measured)
    (covers : layout.placement.Covers px py) (short : layout.displayWidth ≤ 2 ^ 24)
    (short' : layout.displayHeight ≤ 2 ^ 24)
    (small : layout.placement.width * layout.width ≤ 2 ^ 23)
    (small' : layout.placement.height * layout.height ≤ 2 ^ 23) :
    layout.Has (layout.touch px py).1 (layout.touch px py).2 ↔
      2 * (px - layout.placement.x) * layout.width + layout.placement.width <
        2 * layout.width * layout.placement.width ∧
      2 * (py - layout.placement.y) * layout.height + layout.placement.height <
        2 * layout.height * layout.placement.height := by
  obtain ⟨first, second⟩ := measured.shows covers
  have right := measured.right
  have bottom := measured.bottom
  rw [measured.has_touch_iff covers, touch_eq,
    first.coordinate_lt_iff (by linarith [first.last]) small,
    second.coordinate_lt_iff (by linarith [second.last]) small']

end ScreenLayout

theorem Sizing.Bounded.measured {input : Sizing} {layout : ScreenLayout} (bounded : input.Bounded)
    (computed : input.layout = .ok layout) : layout.Measured := by
  have fits := fits_layout bounded.displayWidth bounded.displayHeight computed
  have size := bounded.layout_le computed
  have range := inRange_layout bounded.displayWidth bounded.displayHeight computed
  exact ⟨placed_layout computed, range, ⟨fits.width, size.1⟩, fits.height, size.2⟩

namespace Stage

open Handset.Act (postAll)

variable {s : Session Stage} {action : PointerAction} {px py x y : Int}

/-- The canvas posts what is touched: no overlay takes it, and the queue is open. -/
structure TakesTouches (s : Session Stage) : Prop where
  touch : s.stage.canvas.settings.touchInput = true
  bare : s.stage.canvas.overlay = none
  accepting : s.queue.closed = false

/-- The first pointer on a pixel of the display is posted as one event, behind all others. Whenever
that is handled, the application is called with the pixel `x`, `y` of the virtual screen. -/
def Reaches (s : Session Stage) (action : PointerAction) (px py x y : Int) : Prop :=
  ∃ (event : Event Job) (queue : Queue Job),
    (hostPointer action 0 (.ofInt px) (.ofInt py)).run.run s = (.ok (), { s with queue }) ∧
    queue.events = s.queue.events ++ [event] ∧
    ∀ runner, handle runner event = do
      call runner (.pointer action) (.pointer action x y) none
      return none

/-- What a touch is posted as. -/
def touchEvent (s : Session Stage) (action : PointerAction) (px py : Int) : EventKind Job :=
  let (x, y) := s.stage.canvas.layout.toVirtual (.ofInt px) (.ofInt py)
  .pointer action 0 x y

theorem run_hostPointer (ready : TakesTouches s) (action : PointerAction) (px py : Int) :
    (hostPointer action 0 (.ofInt px) (.ofInt py)).run.run s =
      (.ok (), { s with queue := s.queue.enqueue (touchEvent s action px py) }) := by
  have events : s.stage.canvas.pointerEvents action 0 (.ofInt px) (.ofInt py) =
      [touchEvent s action px py] := by
    simp [Canvas.pointerEvents, ready.touch, touchEvent]
  have posted : s.queue.post (touchEvent s action px py) =
      (.queued (s.queue.lastId + 1), s.queue.enqueue (touchEvent s action px py)) := by
    rcases s.queue.post_cases (touchEvent s action px py) with
      ⟨closed, -⟩ | ⟨-, paint, -⟩ | ⟨-, -, queued⟩
    · rw [ready.accepting] at closed
      cases closed
    · cases paint
    · exact queued
  have asked : (hostPointer action 0 (.ofInt px) (.ofInt py)).run.run s =
      (postAll (s.stage.canvas.pointerEvents action 0 (.ofInt px) (.ofInt py))).run.run s := by
    simp only [hostPointer, run_bind, run_theCanvas, ready.bare]
  rw [asked, events]
  have post : (postAll [touchEvent s action px py]).run.run s =
      (.ok (), { s with queue := (s.queue.post (touchEvent s action px py)).2 }) := rfl
  rw [post, posted]

theorem reaches_touch (ready : TakesTouches s) (action : PointerAction) (px py : Int) :
    Reaches s action px py (s.stage.canvas.layout.touch px py).1
      (s.stage.canvas.layout.touch px py).2 :=
  ⟨⟨s.queue.lastId + 1, touchEvent s action px py⟩, _, run_hostPointer ready action px py, rfl,
    fun _ => rfl⟩

/-- There is one pixel only that the application is told of. -/
theorem Reaches.eq_touch (reaches : Reaches s action px py x y) (ready : TakesTouches s) :
    s.stage.canvas.layout.touch px py = (x, y) := by
  obtain ⟨event, queue, ran, last, told⟩ := reaches
  rw [run_hostPointer ready] at ran
  obtain rfl : s.queue.enqueue (touchEvent s action px py) = queue :=
    congrArg (Session.queue ∘ Prod.snd) ran
  obtain rfl := (List.singleton_inj.mp (List.append_cancel_left last) : _ = event)
  -- A scripted application without rules records the call.
  let runner : Runner Stage := ⟨Host.stage.step 0, fun _ => return⟩
  let heard : Session Stage :=
    { s with stage := { s.stage with app := .scripted }, rules := [], notes := #[] }
  have notes := congrArg (fun act => (act.run.run heard).2.notes) (told runner)
  have entries : [Note.pointer action (s.stage.canvas.layout.touch px py).1
      (s.stage.canvas.layout.touch px py).2] = [.pointer action x y] := congrArg Array.toList notes
  cases entries
  rfl

/-- What is touched at a pixel of the display is on the virtual screen. -/
def Lands (s : Session Stage) (px py : Int) : Prop :=
  ∀ action, ∃ x y, Reaches s action px py x y ∧ s.stage.canvas.layout.Has x y

theorem lands_iff (ready : TakesTouches s) : Lands s px py ↔
    s.stage.canvas.layout.Has (s.stage.canvas.layout.touch px py).1
      (s.stage.canvas.layout.touch px py).2 := by
  constructor
  · intro lands
    obtain ⟨x, y, reaches, has⟩ := lands .pressed
    rw [reaches.eq_touch ready]
    exact has
  · intro has action
    exact ⟨_, _, reaches_touch ready action px py, has⟩

/-- Every touch on the screen reaches the application, and none comes out left of or above the virtual
screen. They come out on it exactly if the one at the last corner does. As long as all products are
short, that is known for each pixel, and all are on it exactly if neither side is shown at twice its
size or more. -/
theorem touches_land_iff {input : Sizing} (bounded : input.Bounded)
    (computed : input.layout = .ok s.stage.canvas.layout) (ready : TakesTouches s) :
    let layout := s.stage.canvas.layout
    let shown := layout.placement
    (∀ action px py, shown.contains px py = .ok true →
      ∃ x y, Reaches s action px py x y ∧ 0 ≤ x ∧ 0 ≤ y) ∧
    ((∀ px py, shown.contains px py = .ok true → Lands s px py) ↔
      Lands s layout.corner.1 layout.corner.2) ∧
    (layout.displayWidth ≤ 2 ^ 24 → layout.displayHeight ≤ 2 ^ 24 →
      shown.width * layout.width ≤ 2 ^ 23 → shown.height * layout.height ≤ 2 ^ 23 →
      (∀ px py, shown.contains px py = .ok true → (Lands s px py ↔
        2 * (px - shown.x) * layout.width + shown.width < 2 * layout.width * shown.width ∧
        2 * (py - shown.y) * layout.height + shown.height < 2 * layout.height * shown.height)) ∧
      ((∀ px py, shown.contains px py = .ok true → Lands s px py) ↔
        shown.width < 2 * layout.width ∧ shown.height < 2 * layout.height)) := by
  intro layout shown
  have measured : layout.Measured := bounded.measured computed
  have covers {px py : Int} : shown.contains px py = .ok true ↔ shown.Covers px py :=
    measured.contains_iff measured.toInRange
  have corner : (∀ px py, shown.contains px py = .ok true → Lands s px py) ↔
      Lands s layout.corner.1 layout.corner.2 := by
    constructor
    · intro lands
      exact lands _ _ (covers.mpr measured.covers_corner)
    · intro lands px py inside
      exact (lands_iff ready).mpr
        (measured.has_touch_of_corner ((lands_iff ready).mp lands) (covers.mp inside))
  refine ⟨fun action px py inside => ?_, corner, fun short short' small small' => ⟨?_, ?_⟩⟩
  · exact ⟨_, _, reaches_touch ready action px py, measured.touch_nonneg (covers.mp inside)⟩
  · intro px py inside
    rw [lands_iff ready]
    exact measured.has_touch_iff_of_short (covers.mp inside) short short' small small'
  · have side (x w e : Int) : 2 * (x + w - 1 - x) * e + w < 2 * e * w ↔ w < 2 * e := by
      constructor <;> intro less <;> linarith
    rw [corner, lands_iff ready,
      measured.has_touch_iff_of_short measured.covers_corner short short' small small']
    exact and_congr (side ..) (side ..)

/-- A screen of one pixel, shown as large as it fits. -/
def enlargedConfig : Config where
  display := { virtualWidth := 1, virtualHeight := 1, forceFullscreen := true }

theorem enlarged_isSome :
    (Canvas.create enlargedConfig .headless 2 2 0).toOption.isSome = true := by
  decide +kernel

/-- A session of one pixel, which is shown on four. -/
def enlargedSession : Session Stage where
  stage :=
    { canvas := (Canvas.create enlargedConfig .headless 2 2 0).toOption.get enlarged_isSome
      app := .scripted, backBuffer := .blank 1 1 }

/-- What its layout depends on. -/
def enlargedSizing : Sizing :=
  { displayWidth := 2, displayHeight := 2, virtualWidth := 1, virtualHeight := 1, fullscreen := true }

theorem layout_enlargedSession :
    enlargedSizing.layout = .ok enlargedSession.stage.canvas.layout :=
  rfl

theorem takesTouches_enlargedSession : TakesTouches enlargedSession :=
  ⟨rfl, rfl, rfl⟩

theorem touches_land_iff_enlargedSession :
    (∃ x y, Reaches enlargedSession .pressed 1 0 x y ∧ 0 ≤ x ∧ 0 ≤ y) ∧
      Lands enlargedSession 0 0 ∧ ¬ Lands enlargedSession 1 0 := by
  have bounded : enlargedSizing.Bounded := by
    constructor <;> decide
  obtain ⟨reaches, -, exact⟩ :=
    touches_land_iff bounded layout_enlargedSession takesTouches_enlargedSession
  obtain ⟨lands, -⟩ := exact (by decide +kernel) (by decide +kernel) (by decide +kernel)
    (by decide +kernel)
  refine ⟨reaches .pressed 1 0 (by decide +kernel), ?_, ?_⟩
  · exact (lands 0 0 (by decide +kernel)).mpr (by decide +kernel)
  · exact fun right => absurd ((lands 1 0 (by decide +kernel)).mp right) (by decide +kernel)

/-- A touch on the last column is a touch behind the only one. -/
theorem touch_lost :
    ¬ ∀ (input : Sizing) (s : Session Stage), input.Bounded →
      input.layout = .ok s.stage.canvas.layout → TakesTouches s → ∀ px py,
        s.stage.canvas.layout.placement.contains px py = .ok true → Lands s px py := by
  intro lands
  have bounded : enlargedSizing.Bounded := by
    constructor <;> decide
  have right := lands enlargedSizing enlargedSession bounded layout_enlargedSession
    takesTouches_enlargedSession 1 0 (by decide +kernel)
  rw [lands_iff takesTouches_enlargedSession] at right
  exact absurd right (by decide +kernel)

end Stage

end Handset
