import Handset.Session.Engine

/-! Sessions of a queue alone. Its handler records each event, runs work, and then does what the
rules say. -/

namespace Handset.Host

def handleBare (runner : Runner Unit) (event : Event Job) : Act Unit (Option Failure) := do
  if event.tag = .paint then Act.holdPending runner
  Act.note (.event event)
  match event.kind with
  | .task job => Act.runJob runner job
  | _ => pure ()
  Act.runRule runner (.event event.tag) event.kind.keyCode?

/-- There is no canvas to ask anything of. -/
def bare : Host Unit where
  handle := handleBare
  perform _ _ := return .nothing
  presented _ := 0
  service _ := return

end Handset.Host
