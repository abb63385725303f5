import Handset.Proofs.Exhibits
import Handset.Proofs.Wholes

/-! A back buffer reaches the display in two ways: its game canvas pushes it, by way of an image of
its own, or the canvas paints it like any other drawing. Where it has the size of the canvas both show
the same. -/

namespace Handset

namespace Floating

end Floating

namespace Image

end Image

namespace Graphics

end Graphics

namespace Stage

variable {s : Session Stage} {runner : Runner Stage}

/-- What is composed of one image in one session comes to the same. -/
theorem Composed.unique {s₁ s₂ : Session Stage} {result result' : Except Fault Unit}
    (composed : Composed s result s₁) (composed' : Composed s result' s₂)
    (same : s₁.stage.canvas.frame.copy = s₂.stage.canvas.frame.copy)
    (settings : s₁.stage.canvas.settings = s₂.stage.canvas.settings) :
    result = result' ∧ s₁.stage.canvas.frame.display = s₂.stage.canvas.frame.display ∧
      (result = .ok () → Exhibits s s₁ ∧
        s₁.stage.canvas.frame.screen = s₂.stage.canvas.frame.screen) := by
  have pictures (screen : Image) (layout : s₁.stage.canvas.layout = s₂.stage.canvas.layout) :
      pictured screen s₁ = pictured screen s₂ := by
    rw [pictured, pictured, same, settings, layout]
  cases composed with
  | exhibits picture exhibits =>
    cases composed' with
    | exhibits picture' exhibits' =>
      rw [pictures _ (exhibits.layout.trans exhibits'.layout.symm)] at picture
      have screen := Except.ok.inj (picture.symm.trans picture')
      exact ⟨rfl, by rw [exhibits.display, exhibits'.display, screen], fun _ => ⟨exhibits, screen⟩⟩
    | overflowed picture' _ layout _ =>
      rw [pictures _ (exhibits.layout.trans layout.symm)] at picture
      cases picture.symm.trans picture'
  | overflowed picture _ layout display =>
    cases composed' with
    | exhibits picture' exhibits' =>
      rw [pictures _ (layout.trans exhibits'.layout.symm)] at picture
      cases picture.symm.trans picture'
    | overflowed picture' _ layout' display' =>
      rw [pictures _ (layout.trans layout'.symm)] at picture
      cases Except.error.inj (picture.symm.trans picture')
      exact ⟨rfl, display.trans display'.symm, nofun⟩

end Stage

end Handset
