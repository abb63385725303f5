/-! The errors an application or a host is told of, by cause. -/

namespace Handset

inductive ConfigError
  | scaleRatio (found : Int)
  | keyRatios
  deriving DecidableEq, Repr

inductive Error
  | unknownKeyCode (code : Int)
  | unknownGameAction (code : Int)
  | presentFailed (reason : String)
  | config (cause : ConfigError)
  deriving DecidableEq, Repr

def ConfigError.message : ConfigError → String
  | .scaleRatio found => s!"scale_ratio must be positive, got {found}"
  | .keyRatios => "keyboard key ratios must be positive"

def Error.message : Error → String
  | .unknownKeyCode code => s!"unknown keycode {code}"
  | .unknownGameAction code => s!"unknown game action {code}"
  | .presentFailed reason => s!"Frame presentation failed: {reason}"
  | .config cause => s!"Invalid configuration: {cause.message}"

end Handset
