/-! Messages that calls leave behind for whoever watches them. -/
namespace ShaderGraph

inductive Level
  | trace
  | debug
  | warn
  deriving DecidableEq, Repr

def Level.name : Level → String
  | .trace => "TRACE"
  | .debug => "DEBUG"
  | .warn => "WARN"

structure Message where
  level : Level
  text : String
  deriving DecidableEq, Repr

def Message.line (m : Message) : String := s!"{m.level.name} {m.text}"

structure Logged (α : Type) where
  value : α
  log : List Message := []
  deriving DecidableEq, Repr

end ShaderGraph
