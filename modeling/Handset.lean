import Handset.Config.Document
import Handset.Demo
import Handset.Image.Pixels
import Handset.Main
import Handset.Proofs.Aspect
import Handset.Proofs.BackBuffer
import Handset.Proofs.Bookkeeping
import Handset.Proofs.CanvasSessions
import Handset.Proofs.Coalescing
import Handset.Proofs.Current
import Handset.Proofs.Endings
import Handset.Proofs.Engine
import Handset.Proofs.Exhibits
import Handset.Proofs.Flushing
import Handset.Proofs.Handed
import Handset.Proofs.HeldKeys
import Handset.Proofs.KeyboardStrip
import Handset.Proofs.Locks
import Handset.Proofs.Notice
import Handset.Proofs.Overlap
import Handset.Proofs.Overlays
import Handset.Proofs.Overrides
import Handset.Proofs.PaintCycle
import Handset.Proofs.Pictures
import Handset.Proofs.QueueSessions
import Handset.Proofs.Reentry
import Handset.Proofs.Refusals
import Handset.Proofs.Repaint
import Handset.Proofs.Service
import Handset.Proofs.Sessions
import Handset.Proofs.Shapes
import Handset.Proofs.Sizing
import Handset.Proofs.Slots
import Handset.Proofs.Storage
import Handset.Proofs.Studio
import Handset.Proofs.Suppression
import Handset.Proofs.Touches
