import Handset.Session.Handler

/-! Refused frames in scripts and in reports. A script is blind to them if it neither asks how many
frames were presented nor looks at the display. A report is hushed by leaving out the lines that they
were logged with. -/

namespace Handset

/-- Does not ask what became of the frames that the display was given. -/
def Request.blind : Request → Bool
  | .presented => false
  | .lastFrame => false
  | _ => true

mutual

/-- Does not ask what became of frames, and posts or sets nothing that does; a dispatch does not wait
for a frame. In a `solo` script there is no dispatch. -/
def Step.blind (solo : Bool) : Step → Bool
  | .post kind => EventKind.blind solo kind
  | .flush _ _ held => Step.allBlind solo held
  | .addRule rule => rule.blind solo
  | .setPaint script => PaintItem.allBlind solo script
  | .perform body => body.blind solo
  | .dispatch held _ service => !solo && !service && Step.allBlind solo held
  | .ask request => request.blind
  | .process => true
  | .drain _ => true
  | .remove _ => true
  | .counts => true
  | .inspect => true
  | .close => true

def Step.allBlind (solo : Bool) : List Step → Bool
  | [] => true
  | step :: steps => step.blind solo && Step.allBlind solo steps

def Body.blind (solo : Bool) : Body → Bool
  | .mk (some steps) _ => Step.allBlind solo steps
  | .mk none _ => true

def Job.blind (solo : Bool) : Job → Bool
  | .named _ body => body.blind solo
  | .gate held => Step.allBlind solo held
  | .last _ => true

def EventKind.blind (solo : Bool) : EventKind Job → Bool
  | .task job => job.blind solo
  | _ => true

def Rule.blind (solo : Bool) : Rule → Bool
  | .mk _ _ _ body => body.blind solo

def PaintItem.blind (solo : Bool) : PaintItem → Bool
  | .body body => body.blind solo
  | _ => true

def PaintItem.allBlind (solo : Bool) : List PaintItem → Bool
  | [] => true
  | item :: items => item.blind solo && PaintItem.allBlind solo items

end

/-- A refused frame is logged with this entry. -/
def LogEntry.refuses : LogEntry → Bool
  | .presentFailed .. => true
  | _ => false

mutual

def Answer.hushed : Answer → Answer
  | .took held => .took (StepAnswer.allHushed held)
  | .dispatched entered held serviced closed completed =>
    .dispatched entered (StepAnswer.allHushed held) serviced closed completed
  | answer => answer

def Note.hushed : Note → Note
  | .nested answers => .nested (StepAnswer.allHushed answers)
  | entry => entry

def StepAnswer.hushed : StepAnswer → StepAnswer
  | .mk (.ok answer) notes logs queued =>
    .mk (.ok answer.hushed) (Note.allHushed notes) (logs.filter (!·.refuses)) queued
  | .mk (.error fault) notes logs queued =>
    .mk (.error fault) (Note.allHushed notes) (logs.filter (!·.refuses)) queued

def StepAnswer.allHushed : List StepAnswer → List StepAnswer
  | [] => []
  | answer :: answers => answer.hushed :: StepAnswer.allHushed answers

def Note.allHushed : List Note → List Note
  | [] => []
  | entry :: entries => entry.hushed :: Note.allHushed entries

end

mutual

/-- The refused frames that are reported. -/
def Answer.refusals : Answer → Nat
  | .took held => StepAnswer.allRefusals held
  | .dispatched _ held _ _ _ => StepAnswer.allRefusals held
  | _ => 0

def Note.refusals : Note → Nat
  | .nested answers => StepAnswer.allRefusals answers
  | _ => 0

def StepAnswer.refusals : StepAnswer → Nat
  | .mk (.ok answer) notes logs _ =>
    answer.refusals + Note.allRefusals notes + logs.countP (·.refuses)
  | .mk (.error _) notes logs _ => Note.allRefusals notes + logs.countP (·.refuses)

def StepAnswer.allRefusals : List StepAnswer → Nat
  | [] => 0
  | answer :: answers => answer.refusals + StepAnswer.allRefusals answers

def Note.allRefusals : List Note → Nat
  | [] => 0
  | entry :: entries => entry.refusals + Note.allRefusals entries

end

theorem Note.allHushed_append (notes notes' : List Note) :
    Note.allHushed (notes ++ notes') = Note.allHushed notes ++ Note.allHushed notes' := by
  induction notes with
  | nil => rfl
  | cons entry notes ih => simp only [List.cons_append, Note.allHushed, ih]

theorem Note.allRefusals_append (notes notes' : List Note) :
    Note.allRefusals (notes ++ notes') = Note.allRefusals notes + Note.allRefusals notes' := by
  induction notes with
  | nil => simp [Note.allRefusals]
  | cons entry notes ih => simp only [List.cons_append, Note.allRefusals, ih, Nat.add_assoc]

end Handset
