import Mathlib.Data.Rat.Floor
import Mathlib.Tactic.Linarith
import ThreescaleTests.Library.Pasting
import ThreescaleTests.Library.Prog
import ThreescaleTests.Library.Windows

/-!
# Screenshots of whole pages

The browser scrolls down by the height of the viewport, and each screenshot is pasted
where its part of the page belongs. The last one shows the end of the page, since the
browser does not scroll past it, and is pasted so much higher. No row is left out, and
each is less than a row away from its scaled position.
-/

namespace ThreescaleTests.Ui

open Library

/-! ## The page -/

/-- A page with its viewport, and the height of a screenshot of the viewport in pixels. -/
structure FullPage where
  totalHeight : Nat
  viewportHeight : Nat
  screenHeight : Nat
  viewport_pos : 0 < viewportHeight
  viewport_le : viewportHeight ≤ totalHeight

/-- The position the browser has scrolled to, and the image so far; a row of the image is the
position on the page that it shows. -/
structure Stitching where
  scrollY : Nat
  stitched : List (Option ℚ)

namespace FullPage

variable (page : FullPage)

/-- The position that the browser scrolls to, which does not go past the end of the page. -/
def top (scroll : Nat) : Nat := min scroll (page.totalHeight - page.viewportHeight)

def scrollTo (scroll : Nat) : Prog Stitching Unit :=
  Prog.modify fun s => { s with scrollY := page.top scroll }

def screen (scrollY : Nat) : List ℚ :=
  (List.range page.screenHeight).map fun i : Nat =>
    (scrollY + i * (page.viewportHeight / page.screenHeight) : ℚ)

def getScreenshot : Prog Stitching (List ℚ) := Prog.gets fun s => page.screen s.scrollY

def scalingConstant (height : Nat) : ℚ := height / page.viewportHeight

def scrolls : List Nat :=
  (List.range (windows page.totalHeight page.viewportHeight)).map (· * page.viewportHeight)

def offset (height scroll : Nat) : Nat :=
  if scroll + page.viewportHeight > page.totalHeight then
    ⌈((page.totalHeight : ℚ) - page.viewportHeight) * page.scalingConstant height⌉₊
  else ⌈scroll * page.scalingConstant height⌉₊

def stitch (height scroll : Nat) : Prog Stitching Unit := do
  scrollTo page scroll
  let screenshot ← getScreenshot page
  Prog.modify fun s =>
    { s with stitched := paste screenshot (page.offset height scroll) s.stitched }

/-- `fullpage_screenshot`, with the image that it saves. -/
def fullpageScreenshot : Prog Stitching (List (Option ℚ)) := do
  let screenshot ← getScreenshot page
  let height := screenshot.length
  Prog.modify fun s =>
    { s with stitched :=
        List.replicate ⌊page.totalHeight * page.scalingConstant height⌋₊ none }
  Prog.forEach (stitch page height) (scrolls page)
  Prog.gets Stitching.stitched

/-! ## What is pasted where -/

def ratio : ℚ := page.screenHeight / page.viewportHeight

theorem length_screen (scrollY : Nat) : (page.screen scrollY).length = page.screenHeight := by
  rw [screen, List.length_map, List.length_range]

theorem stitch_run (height scroll : Nat) (s : Stitching) :
    (stitch page height scroll).run s = (.ok (), ⟨page.top scroll,
      paste (page.screen (page.top scroll)) (page.offset height scroll) s.stitched⟩) := rfl

def image : List (Option ℚ) :=
  pasteAll (fun scroll => page.screen (page.top scroll)) (page.offset page.screenHeight)
    page.scrolls (List.replicate ⌊page.totalHeight * page.ratio⌋₊ none)

theorem fullpageScreenshot_run (s : Stitching) : ∃ s',
    (fullpageScreenshot page).run s = (.ok page.image, s') := by
  rw [fullpageScreenshot, getScreenshot, Prog.gets_bind_run]
  simp only [length_screen]
  rw [Prog.modify_bind_run, Prog.bind_of_ok (Prog.forEach_run (page.stitch_run _) _ _),
    Prog.gets_run]
  refine ⟨_, Prod.ext (congrArg Except.ok ?_) rfl⟩
  exact (List.foldl_hom Stitching.stitched fun _ _ => rfl).symm

/-- The offset is that of the position the browser has scrolled to. -/
theorem offset_eq (scroll : Nat) :
    page.offset page.screenHeight scroll = ⌈page.top scroll * page.ratio⌉₊ := by
  have hle := page.viewport_le
  rw [offset]
  split
  case isTrue h =>
    have htop : page.top scroll = page.totalHeight - page.viewportHeight := by
      rw [top]
      omega
    rw [htop, Nat.cast_sub hle]
    rfl
  case isFalse h =>
    have htop : page.top scroll = scroll := by
      rw [top]
      omega
    rw [htop]
    rfl

theorem ratio_nonneg : 0 ≤ page.ratio := div_nonneg (Nat.cast_nonneg _) (Nat.cast_nonneg _)

theorem viewportHeight_mul_ratio : (page.viewportHeight : ℚ) * page.ratio = page.screenHeight := by
  have hpos : (0 : ℚ) < page.viewportHeight := Nat.cast_pos.mpr page.viewport_pos
  exact mul_div_cancel₀ _ hpos.ne'

/-- A screenshot is pasted less than a row below its scaled position. -/
theorem le_offset_lt (scroll : Nat) :
    page.top scroll * page.ratio ≤ page.offset page.screenHeight scroll ∧
      (page.offset page.screenHeight scroll : ℚ) < page.top scroll * page.ratio + 1 := by
  rw [offset_eq]
  have hnonneg : 0 ≤ page.top scroll * page.ratio :=
    mul_nonneg (Nat.cast_nonneg _) page.ratio_nonneg
  exact ⟨Nat.le_ceil _, Nat.ceil_lt_add_one hnonneg⟩

/-! ## The whole page -/

/-- A screen shows a position on the page. -/
def Shows (scroll : Nat) (y : ℚ) : Prop :=
  page.top scroll ≤ y ∧ y < page.top scroll + page.viewportHeight

/-- Every position on the page is shown by a screen. -/
theorem exists_shows {y : ℚ} (hy : 0 ≤ y) (hlt : y < page.totalHeight) :
    ∃ scroll ∈ page.scrolls, page.Shows scroll y := by
  have hpos : (0 : ℚ) < page.viewportHeight := Nat.cast_pos.mpr page.viewport_pos
  have hle := page.viewport_le
  -- the screen that the position is on if the browser scrolls as far as it is told
  obtain ⟨k, hk⟩ : ∃ k, k = ⌊y / page.viewportHeight⌋₊ := ⟨_, rfl⟩
  have hfrom : (k * page.viewportHeight : ℚ) ≤ y := by
    rw [← le_div_iff₀ hpos, hk]
    exact Nat.floor_le (div_nonneg hy hpos.le)
  have hto : y < (k * page.viewportHeight : ℚ) + page.viewportHeight := by
    have hfloor := Nat.lt_floor_add_one (y / page.viewportHeight)
    rw [← hk, div_lt_iff₀ hpos] at hfloor
    linarith
  have hinside : k * page.viewportHeight < page.totalHeight := by
    exact_mod_cast hfrom.trans_lt hlt
  refine ⟨k * page.viewportHeight, ?_, ?_⟩
  · exact List.mem_map_of_mem
      (List.mem_range.mpr (lt_windows_of_mul_lt hinside page.viewport_pos))
  · rw [Shows, top]
    rcases Nat.le_total (k * page.viewportHeight) (page.totalHeight - page.viewportHeight) with
      hfull | hlast
    · rw [Nat.min_eq_left hfull]
      push_cast
      exact ⟨hfrom, hto⟩
    · rw [Nat.min_eq_right hlast, Nat.cast_sub hle]
      have hlast' : ((page.totalHeight - page.viewportHeight : Nat) : ℚ) ≤
          (k * page.viewportHeight : Nat) := Nat.cast_le.mpr hlast
      rw [Nat.cast_sub hle] at hlast'
      push_cast at hlast'
      exact ⟨hlast'.trans hfrom, by linarith⟩

/-- A row is less than a row below the scaled position on the page. -/
def Placed (y row : ℚ) : Prop := y * page.ratio ≤ row ∧ row < y * page.ratio + 1

/-- The image shows the whole page, each position where it belongs. -/
structure Stitched (image : List (Option ℚ)) : Prop where
  height : image.length = ⌊page.totalHeight * page.ratio⌋₊
  shown : ∀ y : ℚ, 0 ≤ y → y < page.totalHeight → ∃ scroll ∈ page.scrolls, page.Shows scroll y
  placed : ∀ scroll ∈ page.scrolls, ∀ y : ℚ, page.Shows scroll y →
    page.Placed y (page.offset page.screenHeight scroll + (y - page.top scroll) * page.ratio)
  covered : ∀ j < image.length, ∃ scroll ∈ page.scrolls,
    page.offset page.screenHeight scroll ≤ j ∧
      j < page.offset page.screenHeight scroll + page.screenHeight
  rows : ∀ j < image.length, ∃ y, image[j]? = some (some y) ∧ page.Placed y j

/-- A position lands where its screen is pasted, so much further down as it is on the screen. -/
theorem placed_offset (scroll : Nat) (y : ℚ) :
    page.Placed y
      (page.offset page.screenHeight scroll + (y - page.top scroll) * page.ratio) := by
  have hoffset := page.le_offset_lt scroll
  rw [Placed, sub_mul]
  constructor
  · linarith [hoffset.1]
  · linarith [hoffset.2]

/-- A row is reached by the screen that shows the position that belongs there. -/
theorem exists_covers {j : Nat} (hj : j < ⌊page.totalHeight * page.ratio⌋₊) :
    ∃ scroll ∈ page.scrolls, page.offset page.screenHeight scroll ≤ j ∧
      j < page.offset page.screenHeight scroll + page.screenHeight := by
  have hbelow : (j : ℚ) < page.totalHeight * page.ratio := Nat.lt_of_lt_floor hj
  have hratio : 0 < page.ratio := by
    refine lt_of_le_of_ne page.ratio_nonneg fun hzero => ?_
    rw [← hzero, mul_zero] at hbelow
    exact absurd hbelow (not_lt.mpr (Nat.cast_nonneg j))
  have hposition : (j / page.ratio) * page.ratio = j := div_mul_cancel₀ _ hratio.ne'
  obtain ⟨scroll, hscroll, hfrom, hto⟩ := page.exists_shows
    (div_nonneg (Nat.cast_nonneg j) hratio.le) ((div_lt_iff₀ hratio).mpr hbelow)
  refine ⟨scroll, hscroll, ?_, ?_⟩
  · rw [offset_eq, Nat.ceil_le]
    exact (mul_le_mul_of_nonneg_right hfrom hratio.le).trans_eq hposition
  · have hrow := mul_lt_mul_of_pos_right hto hratio
    rw [hposition, add_mul, viewportHeight_mul_ratio] at hrow
    have hoffset := (page.le_offset_lt scroll).1
    have hcast : (j : ℚ) < (page.offset page.screenHeight scroll + page.screenHeight : Nat) := by
      push_cast
      linarith
    exact Nat.cast_lt.mp hcast

theorem placed_screen {scroll i : Nat} {y : ℚ}
    (h : (page.screen (page.top scroll))[i]? = some y) :
    page.Placed y (page.offset page.screenHeight scroll + i : Nat) := by
  have hlt : i < page.screenHeight := by
    obtain ⟨hi, -⟩ := List.getElem?_eq_some_iff.mp h
    rwa [length_screen] at hi
  rw [screen, List.getElem?_map, List.getElem?_range hlt, Option.map_some,
    Option.some.injEq] at h
  have hscreen : (0 : ℚ) < page.screenHeight := Nat.cast_pos.mpr (Nat.zero_lt_of_lt hlt)
  have hviewport : (0 : ℚ) < page.viewportHeight := Nat.cast_pos.mpr page.viewport_pos
  have hscaled : (i : ℚ) * (page.viewportHeight / page.screenHeight) * page.ratio = i := by
    rw [mul_assoc, ratio, div_mul_div_cancel₀ hscreen.ne', div_self hviewport.ne', mul_one]
  have hrow : (page.offset page.screenHeight scroll : ℚ) + (y - page.top scroll) * page.ratio =
      (page.offset page.screenHeight scroll + i : Nat) := by
    rw [← h, add_sub_cancel_left, hscaled, Nat.cast_add]
  exact hrow ▸ page.placed_offset scroll y

theorem length_image : page.image.length = ⌊page.totalHeight * page.ratio⌋₊ := by
  rw [image, length_pasteAll, List.length_replicate]

theorem exists_image_row {j : Nat} (hj : j < page.image.length) :
    ∃ y, page.image[j]? = some (some y) ∧ page.Placed y j := by
  rw [length_image] at hj
  obtain ⟨scroll, hscroll, hfrom, hto⟩ := page.exists_covers hj
  have hlength := page.length_screen (page.top scroll)
  obtain ⟨y, hy⟩ : ∃ y, page.image[j]? = some (some y) :=
    exists_getElem?_pasteAll (hj.trans_eq List.length_replicate.symm)
      (Or.inl ⟨scroll, hscroll, hfrom, by rwa [hlength]⟩)
  have hblank : ∀ (j : Nat) (y : ℚ), (List.replicate ⌊page.totalHeight * page.ratio⌋₊
      (none : Option ℚ))[j]? = some (some y) → page.Placed y j := by
    intro j y h
    cases List.eq_of_mem_replicate (List.mem_of_getElem? h)
  exact ⟨y, hy, pasteAll_rows (P := fun j y => page.Placed y (j : Nat))
    (fun scroll _ i y h => page.placed_screen h) hblank hy⟩

theorem fullpageScreenshot_stitched (s : Stitching) : ∃ image s',
    (fullpageScreenshot page).run s = (.ok image, s') ∧ page.Stitched image := by
  obtain ⟨s', hrun⟩ := page.fullpageScreenshot_run s
  refine ⟨page.image, s', hrun, ?_, ?_, ?_, ?_, ?_⟩
  · exact page.length_image
  · exact fun y hy hlt => page.exists_shows hy hlt
  · exact fun scroll _ y _ => page.placed_offset scroll y
  · exact fun j hj => page.exists_covers (page.length_image ▸ hj)
  · exact fun j hj => page.exists_image_row hj

/-- Two screens and a third, with four rows of pixels for three of the page. -/
def examplePage : FullPage := ⟨7, 3, 4, by decide, by decide⟩

/-- The third screenshot is pasted over the end of the second one. -/
theorem fullpageScreenshot_stitched_thirds :
    examplePage.Stitched [some 0, some (3 / 4), some (3 / 2), some (9 / 4), some 3,
      some (15 / 4), some 4, some (19 / 4), some (11 / 2)] := by
  obtain ⟨image, s', hrun, hstitched⟩ := fullpageScreenshot_stitched examplePage ⟨0, []⟩
  have himage : ((fullpageScreenshot examplePage).run ⟨0, []⟩).1 =
      .ok [some 0, some (3 / 4), some (3 / 2), some (9 / 4), some 3, some (15 / 4), some 4,
        some (19 / 4), some (11 / 2)] := by
    decide +kernel
  rw [hrun] at himage
  exact Except.ok.inj himage ▸ hstitched

end FullPage

end ThreescaleTests.Ui
