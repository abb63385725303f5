import Handset.Proofs.Refusals

/-! The frames that a display is handed. In whatever way a canvas comes to compose, each is the picture
of what is shown at the time; what the display has in the end is what it took of them. -/

namespace Handset

namespace Display

end Display

namespace Studio

/-- Whatever display it is for, the frame is the picture of what threads have the canvas show. -/
theorem Exhibited.on {first : Canvas} {display : Display} {frame : Image}
    (exhibited : Exhibited { first with frame.display := display } frame) :
    Exhibited first frame := by
  obtain ⟨studio, settings, leads, holder, shows⟩ := exhibited
  obtain ⟨frames, follows⟩ := Leads.behind leads
  obtain ⟨b', -, leads'⟩ := follows ⟨first.frame.display, first.frame.presented, #[], #[], none⟩
  exact ⟨studio.behind b', settings, leads', holder, shows⟩

end Studio

namespace Stage

variable {config : Config} {kind : DisplayKind} {width height : Int} {now : Nat} {first : Canvas}

end Stage

end Handset
